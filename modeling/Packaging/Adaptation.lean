import Packaging.Wrapper

/-! # Adaptation
Making wrappers from the resources that discovery found. Kinds with a context get it from a policy at
once, and later changes of the policy do not reach them. -/

namespace Packaging.Resource

/-- Whether scripts can handle a resource. -/
def isCompatible : Resource → Bool
  | record _ => true
  | _ => false

/-- The wrapper of a resource under a policy. Only compatible resources may be asked for. -/
def adapt (p : Policy) : Resource → Except Failure Wrapper
  | record r =>
    if r.kind.hasContext then Wrapper.applyPolicy p { record := r } else .ok { record := r }
  | r =>
    .error (Fault.precondition (Text.concat ["incompatible resource ", r.kindName,
      " passed; did you forget to filter through is_compatible()?"]))

/-- The wrappers of the compatible ones among some resources, in their order. -/
def adaptAll (p : Policy) (rs : List Resource) : Except Failure (List Wrapper) :=
  (rs.filter isCompatible).mapM (adapt p)

end Packaging.Resource
