import Packaging.CommandLine.Invocation
import Packaging.Proofs.Bindings
import Packaging.Proofs.Outcomes

/-! # Lists of arguments
What one more argument does to an invocation. A switch in front that asks for the steps to be told
changes nothing about the request; and a switch behind that names a preset changes nothing else about
the request to show a policy. -/

namespace Packaging.CommandLine

/-! ## Asking for the steps to be told -/

/-- Settings that ask for the steps to be told. -/
def Settings.loud (settings : Settings) : Settings := { settings with verbose := true }

/-- To want the steps told does not change the script. -/
theorem Settings.script_loud (settings : Settings) : settings.loud.script = settings.script := rfl

/-- To want the steps told does not change what is left over. -/
theorem Settings.leftOver_loud (settings : Settings) :
    settings.loud.leftOver = settings.leftOver := rfl

/-- To want the steps told does not change the request. -/
theorem Settings.request_loud (settings : Settings) (c : Command) :
    settings.loud.request c = settings.request c := by
  cases c with
  | _ => rfl

section Loud

variable (settings : Settings) (f : Form)

/-- The steps may be asked for before or after a switch is turned on. -/
theorem Settings.turnOn_loud (s : Switch) :
    settings.loud.turnOn f s = (settings.turnOn f s).map Settings.loud := by
  cases s with
  | _ => rfl

/-- The steps may be asked for before or after several switches are turned on. -/
theorem Settings.foldlM_turnOn_loud (switches : List Switch) :
    switches.foldlM (fun (settings : Settings) s => settings.turnOn f s) settings.loud =
      (switches.foldlM (fun (settings : Settings) s => settings.turnOn f s) settings).map
        Settings.loud := by
  induction switches generalizing settings with
  | nil => rfl
  | cons s switches ih =>
    rw [List.foldlM_cons, List.foldlM_cons, turnOn_loud]
    cases settings.turnOn f s with
    | error refusal => rfl
    | ok settings => exact ih settings

/-- The steps may be asked for before or after all switches of an argument are turned on. -/
theorem Settings.turnAllOn_loud (s : Switch) (name : Text) (attached : Option Text) :
    settings.loud.turnAllOn f s name attached =
      (settings.turnAllOn f s name attached).map Settings.loud := by
  rw [turnAllOn, turnAllOn]
  cases f.turnedOn s name attached with
  | error misuse => rfl
  | ok switches => exact settings.foldlM_turnOn_loud f switches

/-- The steps may be asked for before or after a switch is given its value. -/
theorem Settings.give_loud (value : Text) (s : Switch) :
    settings.loud.give f value s = (settings.give f value s).map Settings.loud := by
  cases s with
  | _ => rfl

/-- The steps may be asked for before or after the arguments of the program are read. -/
theorem readProgram_loud (arguments : List Argument) :
    readProgram settings.loud arguments =
      (readProgram settings arguments).map fun (settings, word, rest) =>
        (settings.loud, word, rest) := by
  induction arguments generalizing settings with
  | nil => rfl
  | cons a rest ih =>
    obtain ⟨text, role⟩ := a
    cases role with
    | value => rfl
    | separator =>
      rw [readProgram, readProgram]
      cases rest with
      | nil => rfl
      | cons a rest => rfl
    | unknown => exact ih (settings.leave text)
    | switch s name attached =>
      rw [readProgram, readProgram]
      dsimp only
      rw [Settings.turnAllOn_loud]
      cases settings.turnAllOn .program s name attached with
      | error refusal => rfl
      | ok settings => exact ih settings

end Loud

/-- What follows a command is read in the same way, whether or not the steps are to be told. -/
theorem readCommand_loud (c : Command) (settings : Settings) (afterScript : Bool)
    (arguments : List Argument) :
    readCommand c settings.loud afterScript arguments =
      (readCommand c settings afterScript arguments).map Settings.loud := by
  cases arguments with
  | nil =>
    rw [readCommand, readCommand, Settings.script_loud]
    by_cases wanted : c.takesScript ∧ settings.script.isNone
    · rw [if_pos wanted, if_pos wanted]
      rfl
    · rw [if_neg wanted, if_neg wanted]
      rfl
  | cons a rest =>
    obtain ⟨text, role⟩ := a
    cases role with
    | value =>
      rw [readCommand, readCommand, Settings.script_loud]
      dsimp only
      by_cases wanted : (c.takesScript && settings.script.isNone) = true
      · rw [if_pos wanted, if_pos wanted]
        exact readCommand_loud c { settings with script := some text } true rest
      · rw [if_neg wanted, if_neg wanted]
        exact readCommand_loud c (settings.leave text) false rest
    | separator =>
      rw [readCommand, readCommand, Settings.script_loud]
      dsimp only
      by_cases silent :
          (afterScript || c.takesScript && settings.script.isNone && !rest.isEmpty) = true
      · rw [if_pos silent, if_pos silent]
        exact readCommand_loud c settings false rest
      · rw [if_neg silent, if_neg silent]
        exact readCommand_loud c (settings.leave text) false rest
    | unknown => exact readCommand_loud c (settings.leave text) false rest
    | switch s name attached =>
      rw [readCommand, readCommand]
      dsimp only
      by_cases alone : s.valueName?.isNone = true
      · rw [if_pos alone, if_pos alone, Settings.turnAllOn_loud]
        cases settings.turnAllOn (.command c) s name attached with
        | error refusal => rfl
        | ok settings => exact readCommand_loud c settings false rest
      · rw [if_neg alone, if_neg alone]
        -- The value is attached, or it is the next argument if that is a plain one.
        cases attached with
        | some value =>
          dsimp only
          rw [Settings.give_loud]
          cases settings.give (.command c) value s with
          | error refusal => rfl
          | ok settings => exact readCommand_loud c settings false rest
        | none =>
          cases rest with
          | nil => rfl
          | cons b rest =>
            obtain ⟨value, role⟩ := b
            cases role with
            | value =>
              dsimp only
              rw [Settings.give_loud]
              cases settings.give (.command c) value s with
              | error refusal => rfl
              | ok settings => exact readCommand_loud c settings false rest
            | _ => rfl
termination_by structural arguments

/-- An argument that names a switch of a form is that switch. -/
theorem Form.roleOf_of_named {f : Form} {t name : Text} {s : Switch} {attached : Option Text}
    (dashed : t.head? = some (CodePoint.ofChar '-')) (named : f.named? t = some (name, s, attached)) :
    f.roleOf t = .ok (.switch s name attached) := by
  rw [roleOf, if_pos dashed, roleOfDashed, named]

/-- An argument that is not the separator has the role that it has by itself. -/
theorem Form.classify_cons {f : Form} {t : Text} {role : Role} (other : t ≠ separatorText)
    (h : f.roleOf t = .ok role) (rest : List Text) :
    f.classify (t :: rest) = (f.classify rest).map (⟨t, role⟩ :: ·) := by
  rw [classify, if_neg other, h]

/-- **A switch in front asks for the steps to be told and for nothing else,** whatever comes behind
it. -/
theorem ofArguments_cons_verbose (arguments : List Text) :
    Invocation.ofArguments ("-v" :: arguments) =
      (Invocation.ofArguments arguments).map fun i => { i with verbose := true } := by
  have role : Form.program.roleOf "-v" = .ok (.switch .verbose "-v" none) :=
    Form.roleOf_of_named (by decide +kernel) (by decide +kernel)
  have read (rest : List Argument) : readProgram {} (⟨"-v", .switch .verbose "-v" none⟩ :: rest) =
      readProgram (Settings.loud {}) rest := rfl
  rw [Invocation.ofArguments, Invocation.ofArguments, Form.read, Form.read,
    Form.classify_cons (by decide +kernel) role]
  -- Both readings go through the same stages; what differs is the one setting that each hands on.
  cases Form.program.classify arguments with
  | error misuse => rfl
  | ok roles =>
    show (readProgram {} (_ :: roles) >>= _) = (readProgram {} roles >>= _).map _
    rw [read, readProgram_loud]
    cases readProgram {} roles with
    | error refusal => rfl
    | ok first =>
      obtain ⟨settings, word, rest⟩ := first
      dsimp only [Except.map, bind, Except.bind]
      cases Command.ofName? word with
      | none => rfl
      | some c =>
        dsimp only
        cases (Form.command c).read rest with
        | error refusal => rfl
        | ok roles =>
          dsimp only
          rw [readCommand_loud]
          cases readCommand c settings false roles with
          | error refusal => rfl
          | ok settings =>
            dsimp only [Except.map]
            rw [Settings.leftOver_loud, Settings.request_loud]
            split
            · rfl
            · rfl

/-! ## Naming a preset -/

/-- The names of the switches of a form hold no equals sign. -/
theorem Form.equals_notMem_names (f : Form) :
    ∀ name ∈ f.names.map (·.1), CodePoint.ofChar '=' ∉ name := by
  cases f with
  | program => decide +kernel
  | command c =>
    cases c with
    | run => decide +kernel
    | policy => decide +kernel

/-- A name with a value attached to it by an equals sign. -/
def attach (name value : Text) : Text := name ++ CodePoint.ofChar '=' :: value

/-- An attached value is told from the name before it. -/
theorem splitValue?_attach {name : Text} (h : CodePoint.ofChar '=' ∉ name) (value : Text) :
    splitValue? (attach name value) = some (name, value) := by
  have before : ∀ c ∈ name, (c ≠ CodePoint.ofChar '=' : Bool) = true := by
    intro c hc
    exact decide_eq_true fun same => h (same ▸ hc)
  rw [splitValue?, attach, List.dropWhile_append_of_pos before, List.takeWhile_append_of_pos before]
  simp

/-- A name with a value attached to it is no name by itself. -/
theorem lookup_attach (f : Form) (name value : Text) : f.names.lookup (attach name value) = none := by
  refine List.lookup_eq_none_iff.2 fun named mem => ?_
  rw [bne_iff_ne]
  rintro same
  refine f.equals_notMem_names named.1 (List.mem_map_of_mem mem) ?_
  rw [← same, attach]
  exact List.mem_append_right _ List.mem_cons_self

/-- A switch is found by its name with a value attached. -/
theorem Form.named?_attach {f : Form} {name : Text} {s : Switch}
    (named : f.names.lookup name = some s) (value : Text) :
    f.named? (attach name value) = some (name, s, some value) := by
  have mem : name ∈ f.names.map (·.1) :=
    List.mem_map.2 ⟨(name, s), Bindings.mem_of_get?_eq_some named, rfl⟩
  rw [named?, lookup_attach]
  dsimp only
  rw [splitValue?_attach (f.equals_notMem_names name mem)]
  dsimp only
  rw [named, Option.map_some]

/-- The argument that names a preset. -/
def modeArgument (mode : Text) : Text := attach "--mode" mode

/-- The argument that names a preset starts with a hyphen. -/
theorem head?_modeArgument (mode : Text) :
    (modeArgument mode).head? = some (CodePoint.ofChar '-') := by
  rw [modeArgument, attach]
  exact List.head?_append_of_ne_nil _ (by decide +kernel)

/-- The argument that names a preset is not the separator. -/
theorem modeArgument_ne_separatorText (mode : Text) : modeArgument mode ≠ separatorText := by
  intro same
  have equals : CodePoint.ofChar '=' ∈ modeArgument mode :=
    List.mem_append_right _ List.mem_cons_self
  rw [same] at equals
  exact absurd equals (by decide +kernel)

/-- After the command that shows a policy it is a switch with a value. -/
theorem roleOf_modeArgument (mode : Text) :
    (Form.command .policy).roleOf (modeArgument mode) =
      .ok (.switch .mode "--mode" (some mode)) :=
  Form.roleOf_of_named (head?_modeArgument mode)
    (Form.named?_attach (by decide +kernel) mode)

/-- To the program as a whole it is no switch. -/
theorem exists_roleOf_modeArgument (mode : Text) :
    ∃ role, Form.program.roleOf (modeArgument mode) = .ok role := by
  have named : Form.program.named? (modeArgument mode) = none := by
    have other : Form.program.names.lookup ("--mode" : Text) = none := by decide +kernel
    rw [Form.named?, modeArgument, lookup_attach]
    dsimp only
    rw [splitValue?_attach (by decide +kernel)]
    dsimp only
    rw [other, Option.map_none]
  have dashes : separatorText.isPrefixOf (modeArgument mode) = true := by
    have begins : separatorText <+: ("--mode" : Text) := by decide +kernel
    exact List.isPrefixOf_iff_prefix.2 (begins.trans (List.prefix_append _ _))
  -- No switch of the program begins so, and thus none can be meant by it.
  have candidates : Form.program.candidates (modeArgument mode) = [] := by
    have short : ∀ named ∈ Form.program.names, ("--mode" : Text).isPrefixOf named.1 = false := by
      decide +kernel
    rw [Form.candidates, if_pos dashes, modeArgument, splitValue?_attach (by decide +kernel)]
    refine List.filterMap_eq_nil_iff.2 fun named mem => ?_
    dsimp only
    rw [short named mem]
    rfl
  rw [Form.roleOf, if_pos (head?_modeArgument mode), Form.roleOfDashed, named]
  dsimp only
  split
  · exact ⟨_, rfl⟩
  · rw [candidates]
    dsimp only
    split
    · exact ⟨_, rfl⟩
    · exact ⟨_, rfl⟩

/-! ## One more argument at the end -/

/-- Arguments without a separator are seen one by one, and so are those behind them. -/
theorem Form.classify_append {f : Form} {a b : List Text} {roles roles' : List Argument}
    (plain : separatorText ∉ a) (ha : f.classify a = .ok roles) (hb : f.classify b = .ok roles') :
    f.classify (a ++ b) = .ok (roles ++ roles') := by
  induction a generalizing roles with
  | nil =>
    obtain rfl := Except.ok.inj ha
    exact hb
  | cons t a ih =>
    rw [List.mem_cons, not_or] at plain
    rw [classify, if_neg (Ne.symm plain.1)] at ha
    rw [List.cons_append, classify, if_neg (Ne.symm plain.1)]
    cases seen : f.roleOf t with
    | error misuse =>
      rw [seen] at ha
      cases ha
    | ok role =>
      rw [seen] at ha
      obtain ⟨others, hothers, rfl⟩ := Except.map_eq_ok_iff.1 ha
      dsimp only
      rw [ih plain.2 hothers]
      rfl

/-- Roles are given to the arguments one by one. -/
theorem Form.texts_of_classify {f : Form} {arguments : List Text} {roles : List Argument}
    (h : f.classify arguments = .ok roles) : roles.map (·.text) = arguments := by
  induction arguments generalizing roles with
  | nil =>
    obtain rfl := Except.ok.inj h
    rfl
  | cons t arguments ih =>
    rw [classify] at h
    split at h
    next same =>
      obtain rfl := Except.ok.inj h
      rw [List.map_cons, List.map_map]
      exact congrArg (t :: ·) (List.map_id _)
    next =>
      split at h
      · cases h
      · obtain ⟨others, hothers, rfl⟩ := Except.map_eq_ok_iff.1 h
        rw [List.map_cons, ih hothers]

/-- What follows a command is among the arguments of the program. -/
theorem rest_suffix_of_readProgram {settings settings' : Settings} {arguments : List Argument}
    {word : Text} {rest : List Text}
    (h : readProgram settings arguments = .ok (settings', word, rest)) :
    rest <:+ arguments.map (·.text) := by
  induction arguments generalizing settings with
  | nil => cases h
  | cons a arguments ih =>
    obtain ⟨text, role⟩ := a
    rw [List.map_cons]
    cases role with
    | value =>
      obtain ⟨rfl, rfl, rfl⟩ := Except.ok.inj h
      exact List.suffix_cons _ _
    | separator =>
      rw [readProgram] at h
      dsimp only at h
      split at h
      · cases h
      · obtain ⟨rfl, rfl, rfl⟩ := Except.ok.inj h
        exact List.suffix_cons _ _
    | unknown => exact (ih h).trans (List.suffix_cons _ _)
    | switch s name attached =>
      rw [readProgram] at h
      dsimp only at h
      split at h
      · cases h
      · exact (ih h).trans (List.suffix_cons _ _)

/-- Once the program has found a command, more arguments belong to the command. -/
theorem readProgram_append {settings settings' : Settings} {arguments : List Argument}
    {word : Text} {rest : List Text}
    (h : readProgram settings arguments = .ok (settings', word, rest)) (more : List Argument) :
    readProgram settings (arguments ++ more) =
      .ok (settings', word, rest ++ more.map (·.text)) := by
  -- The word that names the command is among the arguments in front, where the reading ends.
  induction arguments generalizing settings with
  | nil => cases h
  | cons a arguments ih =>
    obtain ⟨text, role⟩ := a
    rw [List.cons_append]
    cases role with
    | value =>
      obtain ⟨rfl, rfl, rfl⟩ := Except.ok.inj h
      rw [readProgram, List.map_append]
    | separator =>
      rw [readProgram] at h ⊢
      dsimp only at h ⊢
      cases arguments with
      | nil => cases h
      | cons b arguments =>
        obtain ⟨rfl, rfl, rfl⟩ := Except.ok.inj h
        rw [List.map_append]
        rfl
    | unknown => exact ih h
    | switch s name attached =>
      rw [readProgram] at h ⊢
      dsimp only at h ⊢
      cases turned : settings.turnAllOn .program s name attached with
      | error refusal =>
        rw [turned] at h
        cases h
      | ok settings =>
        rw [turned] at h
        exact ih h

/-- What follows a command that needs no script is read one after the other. -/
theorem readCommand_append {c : Command} (noScript : c.takesScript = false)
    {settings settings' : Settings} (arguments : List Argument)
    (h : readCommand c settings false arguments = .ok settings') (more : List Argument) :
    readCommand c settings false (arguments ++ more) = readCommand c settings' false more := by
  cases arguments with
  | nil =>
    rw [readCommand, if_neg (by simp [noScript])] at h
    obtain rfl := Except.ok.inj h
    rfl
  | cons a rest =>
    obtain ⟨text, role⟩ := a
    rw [List.cons_append]
    rw [readCommand] at h ⊢
    simp only [noScript, Bool.false_and, Bool.false_or, Bool.false_eq_true, ↓reduceIte] at h ⊢
    cases role with
    | value => exact readCommand_append noScript rest h more
    | separator => exact readCommand_append noScript rest h more
    | unknown => exact readCommand_append noScript rest h more
    | switch s name attached =>
      dsimp only at h ⊢
      by_cases alone : s.valueName?.isNone = true
      · rw [if_pos alone] at h ⊢
        cases turned : settings.turnAllOn (.command c) s name attached with
        | error refusal =>
          rw [turned] at h
          cases h
        | ok settings =>
          rw [turned] at h
          exact readCommand_append noScript rest h more
      · rw [if_neg alone] at h ⊢
        -- A value that is not attached is the next argument. It is among those in front as well,
        -- since without it the reading would have failed there.
        cases attached with
        | some value =>
          dsimp only at h ⊢
          cases given : settings.give (.command c) value s with
          | error refusal =>
            rw [given] at h
            cases h
          | ok settings =>
            rw [given] at h
            exact readCommand_append noScript rest h more
        | none =>
          cases rest with
          | nil => cases h
          | cons b rest =>
            obtain ⟨value, role⟩ := b
            cases role with
            | value =>
              dsimp only [List.cons_append] at h ⊢
              cases given : settings.give (.command c) value s with
              | error refusal =>
                rw [given] at h
                cases h
              | ok settings =>
                rw [given] at h
                exact readCommand_append noScript rest h more
            | _ => cases h
termination_by structural arguments

/-! ## Whole invocations -/

/-- How arguments are read as an invocation. -/
theorem ofArguments_eq_ok_iff {arguments : List Text} {i : Invocation} :
    Invocation.ofArguments arguments = .ok i ↔
      ∃ roles first word rest c roles' settings,
        Form.program.classify arguments = .ok roles ∧
        readProgram {} roles = .ok (first, word, rest) ∧ Command.ofName? word = some c ∧
        (Form.command c).classify rest = .ok roles' ∧
        readCommand c first false roles' = .ok settings ∧ settings.leftOver = [] ∧
        i = ⟨settings.verbose, settings.request c⟩ := by
  rw [Invocation.ofArguments]
  constructor
  · intro h
    -- One stage after the other: the arguments of the program, the command, those of the command.
    obtain ⟨roles, seen, h⟩ := Except.bind_eq_ok_iff.1 h
    obtain ⟨⟨first, word, rest⟩, found, h⟩ := Except.bind_eq_ok_iff.1 h
    dsimp only at h
    cases named : Command.ofName? word with
    | none =>
      rw [named] at h
      cases h
    | some c =>
      rw [named] at h
      obtain ⟨roles', seen', h⟩ := Except.bind_eq_ok_iff.1 h
      obtain ⟨settings, read, h⟩ := Except.bind_eq_ok_iff.1 h
      rw [Form.read, Except.mapError_eq_ok_iff] at seen seen'
      split at h
      next none =>
        exact ⟨roles, first, word, rest, c, roles', settings, seen, found, named, seen', read,
          List.isEmpty_iff.1 none, (Except.ok.inj h).symm⟩
      · cases h
  · rintro ⟨roles, first, word, rest, c, roles', settings, seen, found, named, seen', read, none, rfl⟩
    have seen : Form.program.read arguments = .ok roles := Except.mapError_eq_ok_iff.2 seen
    have seen' : (Form.command c).read rest = .ok roles' := Except.mapError_eq_ok_iff.2 seen'
    refine Except.bind_eq_ok_iff.2 ⟨roles, seen, Except.bind_eq_ok_iff.2 ⟨_, found, ?_⟩⟩
    dsimp only
    rw [named]
    refine Except.bind_eq_ok_iff.2 ⟨roles', seen', Except.bind_eq_ok_iff.2 ⟨settings, read, ?_⟩⟩
    rw [none]
    rfl

/-- **A switch behind that names a preset changes nothing else about a request to show a policy.** If
several are named, the last one counts. -/
theorem ofArguments_append_modeArgument {arguments : List Text} {verbose : Bool}
    {source : PolicySource} {mode? : Option Text} (plain : separatorText ∉ arguments)
    (h : Invocation.ofArguments arguments = .ok ⟨verbose, .policy source mode?⟩) (mode : Text) :
    Invocation.ofArguments (arguments ++ [modeArgument mode]) =
      .ok ⟨verbose, .policy source (switchValue? mode)⟩ := by
  obtain ⟨roles, first, word, rest, c, roles', settings, seen, found, named, seen', read, none, same⟩ :=
    ofArguments_eq_ok_iff.1 h
  cases c with
  | run => cases congrArg Invocation.request same
  | policy =>
    obtain ⟨rfl, rfl, rfl⟩ : verbose = settings.verbose ∧ source = settings.policy ∧
        mode? = settings.mode := by
      simpa [Settings.request] using same
    -- The new argument is one of the command, whatever it is to the program.
    obtain ⟨role, hrole⟩ := exists_roleOf_modeArgument mode
    have other := modeArgument_ne_separatorText mode
    have last : Form.program.classify [modeArgument mode] = .ok [⟨modeArgument mode, role⟩] :=
      Form.classify_cons other hrole []
    have last' : (Form.command .policy).classify [modeArgument mode] =
        .ok [⟨modeArgument mode, .switch .mode "--mode" (some mode)⟩] :=
      Form.classify_cons other (roleOf_modeArgument mode) []
    have plain' : separatorText ∉ rest := by
      intro mem
      have inside := (rest_suffix_of_readProgram found).subset mem
      rw [Form.texts_of_classify seen] at inside
      exact plain inside
    refine ofArguments_eq_ok_iff.2 ⟨_, first, word, rest ++ [modeArgument mode], .policy, _,
      { settings with mode := switchValue? mode }, Form.classify_append plain seen last,
      readProgram_append found _, named, Form.classify_append plain' seen' last', ?_, none, rfl⟩
    rw [readCommand_append rfl roles' read]
    rfl

end Packaging.CommandLine
