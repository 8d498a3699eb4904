import Packaging.Context
import Packaging.Resource

/-! # Policies
A policy decides the first collection context of every resource. Nothing checks a policy when it is
made: a location that is no explicit place shows only when a context is derived. -/

namespace Packaging

/-- The defaults for the contexts of an application's resources. -/
structure Policy where
  /-- Where resources are placed. -/
  location : Placement := .inMemory
  /-- Where resources are placed if the first place does not work. -/
  fallback : Placement := .none
  /-- Whether modules of the standard distribution are collected. -/
  distributionSources : Json := .bool true
  /-- Whether other modules are collected. -/
  nonDistributionSources : Json := .bool true
  /-- Whether resource files of the standard distribution are collected. -/
  distributionResources : Json := .bool false
  /-- Whether tests are collected. -/
  test : Json := .bool false
  /-- Whether bytecode of optimisation level zero is made. -/
  optimizeLevelZero : Json := .bool true
  /-- Whether bytecode of optimisation level one is made. -/
  optimizeLevelOne : Json := .bool false
  /-- Whether bytecode of optimisation level two is made. -/
  optimizeLevelTwo : Json := .bool false

namespace Policy

/-- The flags of a policy. -/
inductive Flag
  /-- Whether modules of the standard distribution are collected. -/
  | distributionSources
  /-- Whether other modules are collected. -/
  | nonDistributionSources
  /-- Whether resource files of the standard distribution are collected. -/
  | distributionResources
  /-- Whether tests are collected. -/
  | test
  /-- Whether bytecode of optimisation level zero is made. -/
  | optimizeLevelZero
  /-- Whether bytecode of optimisation level one is made. -/
  | optimizeLevelOne
  /-- Whether bytecode of optimisation level two is made. -/
  | optimizeLevelTwo
  deriving DecidableEq

/-- All flags, in the order of policy documents. -/
def Flag.all : List Flag :=
  [.distributionSources, .nonDistributionSources, .distributionResources, .test,
    .optimizeLevelZero, .optimizeLevelOne, .optimizeLevelTwo]

/-- What a policy holds in a flag. -/
def flag (p : Policy) : Flag → Json
  | .distributionSources => p.distributionSources
  | .nonDistributionSources => p.nonDistributionSources
  | .distributionResources => p.distributionResources
  | .test => p.test
  | .optimizeLevelZero => p.optimizeLevelZero
  | .optimizeLevelOne => p.optimizeLevelOne
  | .optimizeLevelTwo => p.optimizeLevelTwo

/-- A policy with a flag set. -/
def setFlag (p : Policy) (f : Flag) (data : Json) : Policy :=
  match f with
  | .distributionSources => { p with distributionSources := data }
  | .nonDistributionSources => { p with nonDistributionSources := data }
  | .distributionResources => { p with distributionResources := data }
  | .test => { p with test := data }
  | .optimizeLevelZero => { p with optimizeLevelZero := data }
  | .optimizeLevelOne => { p with optimizeLevelOne := data }
  | .optimizeLevelTwo => { p with optimizeLevelTwo := data }

/-- A flag that is set holds what it was set to; the others keep what they held. -/
@[simp] theorem flag_setFlag (p : Policy) (f g : Flag) (data : Json) :
    (p.setFlag f data).flag g = if g = f then data else p.flag g := by
  cases f <;> cases g <;> rfl

/-- Setting a flag keeps the location. -/
@[simp] theorem location_setFlag (p : Policy) (f : Flag) (data : Json) :
    (p.setFlag f data).location = p.location := by
  cases f <;> rfl

/-- Setting a flag keeps the fallback. -/
@[simp] theorem fallback_setFlag (p : Policy) (f : Flag) (data : Json) :
    (p.setFlag f data).fallback = p.fallback := by
  cases f <;> rfl

/-- What a policy says about collecting a resource: tests of modules and of package files only if
tests are wanted, then by whether the standard distribution brings them, and all else always. -/
def collects (p : Policy) : Resource → Json
  | .record (.moduleSource m) =>
    if m.isTest && !p.test.isTrue then .bool false
    else if m.isStdlib then p.distributionSources
    else p.nonDistributionSources
  | .record (.packageResource r) =>
    if r.isTest && !p.test.isTrue then .bool false
    else if r.isStdlib then p.distributionResources
    else .bool true
  | _ => .bool true

/-- The context that a policy gives a resource before it is placed. Source and bytecode are a matter
of modules in source form only. -/
def unplaced (p : Policy) (r : Resource) : Context :=
  match r with
  | .record (.moduleSource m) =>
    { included := p.collects r
      storeSource := if m.isStdlib then p.distributionSources else p.nonDistributionSources
      optimizeLevelZero := p.optimizeLevelZero
      optimizeLevelOne := p.optimizeLevelOne
      optimizeLevelTwo := p.optimizeLevelTwo }
  | _ => { included := p.collects r }

/-- The context that a policy gives a resource. -/
def derive (p : Policy) (r : Resource) : Except PlacementFault Context :=
  (p.unplaced r).placedAt p.location p.fallback

end Policy

end Packaging
