import MicroBench.CommandLine.Parse

/-! The language of the arguments. A measurement is asked for by options that are given
once each, with values that say what to choose; help may follow them. The reader takes
exactly these arguments. -/
namespace MicroBench.CommandLine

variable {opt other : Opt} {value : List Char} {choices choices' start last : Choices}

/-! ### The language -/

/-- Text that stands for itself: if it begins with a dash, it is only that. -/
def Plain (text : List Char) : Prop := ∀ c rest, text ≠ '-' :: c :: rest

/-- The arguments that give an option a value. An option without a value is given by its name. -/
inductive Spelt : Opt → List Char → List (List Char) → Prop where
  | attached {opt : Opt} {value : List Char} : opt.takesValue = true →
      Spelt opt value ['-' :: '-' :: (opt.name.toList ++ '=' :: value)]
  | apart {opt : Opt} {value : List Char} : opt.takesValue = true → Plain value →
      Spelt opt value ['-' :: '-' :: opt.name.toList, value]
  | bare : Spelt .noSamples [] ['-' :: '-' :: Opt.noSamples.name.toList]

inductive Options : List (Opt × List Char) → List (List Char) → Prop where
  | nil : Options [] []
  | cons {opt : Opt} {value : List Char} {texts arguments : List (List Char)}
      {given : List (Opt × List Char)} : Spelt opt value texts → Options given arguments →
      Options ((opt, value) :: given) (texts ++ arguments)

def Choices.Follows (choices : Choices) (value : List Char) : Opt → Prop
  | .workload => ∃ workload, choices.workload = some workload ∧ workload.name.toList = value
  | .profile => ∃ profile, choices.profile = some profile ∧ profile.name.toList = value
  | .iterations => ∃ n, choices.iterations = some n ∧ Text.readCount value = .ok n
  | .warmup => ∃ n, choices.warmup = some n ∧ Text.readCount value = .ok n
  | .size => ∃ n, choices.size = some n ∧ Text.readCount value = .ok n
  | .seed => ∃ n, choices.seed = some n ∧ Text.readCount value = .ok n
  | .noSamples => choices.noSamples = true
  | .out => choices.out = some value ∧ value ≠ []
  | .help => False

/-- Options make these choices: each is given once, its value says what was chosen, and nothing else
was chosen. -/
structure Choices.MadeBy (choices : Choices) (given : List (Opt × List Char)) : Prop where
  once : (given.map Prod.fst).Nodup
  follows : ∀ option ∈ given, choices.Follows option.2 option.1
  others : ∀ opt, opt ∉ given.map Prod.fst → choices.has opt = false

/-- What may stand behind the options: nothing, or two dashes with nothing behind them. -/
def Closing (arguments : List (List Char)) : Prop := arguments = [] ∨ arguments = [['-', '-']]

def AskMeasurement (arguments : List String) (choices : Choices) : Prop :=
  ∃ given texts closing, arguments.map String.toList = texts ++ closing ∧ Options given texts ∧
    choices.MadeBy given ∧ Closing closing

inductive HelpArgument : Bool → List Char → Prop where
  | long : HelpArgument true ('-' :: '-' :: Opt.help.name.toList)
  | short (letters : List Char) : HelpArgument false ('-' :: 'h' :: letters)

/-- The arguments ask for help; options may precede that, and anything may follow it. -/
def AskHelp (arguments : List String) (long : Bool) : Prop :=
  ∃ given texts argument rest, ∃ choices : Choices,
    arguments.map String.toList = texts ++ argument :: rest ∧
    Options given texts ∧ choices.MadeBy given ∧ HelpArgument long argument

/-! ### One option -/

namespace Choices

def without (choices : Choices) : Opt → Choices
  | .workload => { choices with workload := none }
  | .profile => { choices with profile := none }
  | .iterations => { choices with iterations := none }
  | .warmup => { choices with warmup := none }
  | .size => { choices with size := none }
  | .seed => { choices with seed := none }
  | .noSamples => { choices with noSamples := false }
  | .out => { choices with out := none }
  | .help => choices

theorem has_without (choices : Choices) (opt : Opt) : (choices.without opt).has opt = false := by
  cases opt <;> rfl

theorem has_without_of_ne (apart : other ≠ opt) :
    (choices.without opt).has other = choices.has other := by
  cases opt <;> cases other <;> first | rfl | exact absurd rfl apart

theorem follows_without_of_ne (apart : other ≠ opt) :
    (choices.without opt).Follows value other ↔ choices.Follows value other := by
  cases opt <;> cases other <;> first | rfl | exact absurd rfl apart

theorem without_of_not_has (absent : choices.has opt = false) : choices.without opt = choices := by
  cases choices
  cases opt <;> simp_all [has, without]

theorem has_of_follows (follows : choices.Follows value opt) : choices.has opt = true := by
  cases opt with
  | workload | profile | iterations | warmup | size | seed =>
    obtain ⟨x, chosen, -⟩ := follows
    simp [has, chosen]
  | noSamples => exact follows
  | out => simp [has, follows.1]
  | help => exact follows.elim

theorem eq_blank (unset : ∀ opt, choices.has opt = false) : choices = blank := by
  have workload := unset .workload
  have profile := unset .profile
  have iterations := unset .iterations
  have warmup := unset .warmup
  have size := unset .size
  have seed := unset .seed
  have noSamples := unset .noSamples
  have out := unset .out
  cases choices
  simp_all [has, blank]

theorem map_eq_ok {α β : Type} {f : α → β} {read : Except UsageError α} {y : β} :
    read.map f = .ok y ↔ ∃ x, read = .ok x ∧ f x = y := by
  cases read <;> simp [Except.map]

theorem countOf_eq_ok {n : UInt64} : countOf opt value = .ok n ↔ Text.readCount value = .ok n := by
  rw [countOf]
  cases Text.readCount value <;> simp

theorem choiceOf_eq_ok {α : Type} {all : List α} {name : α → String} {x : α} :
    choiceOf opt value all name = .ok x ↔
      value ≠ [] ∧ all.find? (fun y => (name y).toList = value) = some x := by
  rw [choiceOf]
  by_cases empty : value = []
  · simp [empty]
  · rw [if_neg empty]
    cases all.find? (fun y => (name y).toList = value) <;> simp [empty]

/-- Every workload, and nothing else, is chosen by its name. -/
theorem choiceOf_workload {workload : Workload} :
    choiceOf opt value Workload.all Workload.name = .ok workload ↔
      workload.name.toList = value := by
  rw [choiceOf_eq_ok]
  constructor
  · rintro ⟨-, found⟩
    simpa using List.find?_some found
  · rintro rfl
    cases workload <;> exact ⟨by decide, by decide⟩

theorem choiceOf_profile {profile : Profile} :
    choiceOf opt value Profile.all Profile.name = .ok profile ↔ profile.name.toList = value := by
  rw [choiceOf_eq_ok]
  constructor
  · rintro ⟨-, found⟩
    simpa using List.find?_some found
  · rintro rfl
    cases profile <;> exact ⟨by decide, by decide⟩

/-- To take an option in is to choose what its value says, and nothing else. -/
theorem take_eq_ok (option : opt ≠ .help) :
    choices.take opt value = .ok choices' ↔
      choices'.Follows value opt ∧ choices'.without opt = choices := by
  rw [take]
  by_cases before : choices.has opt = true
  · rw [if_pos before]
    constructor
    · rintro ⟨⟩
    · rintro ⟨-, rfl⟩
      rw [has_without] at before
      cases before
  rw [if_neg before]
  have unset := without_of_not_has (Bool.eq_false_iff.2 before)
  cases opt with
  | workload | profile | iterations | warmup | size | seed =>
    simp only [set, map_eq_ok, choiceOf_workload, choiceOf_profile, countOf_eq_ok, Follows]
    constructor
    · rintro ⟨x, said, rfl⟩
      exact ⟨⟨x, rfl, said⟩, unset⟩
    · rintro ⟨⟨x, chosen, said⟩, rfl⟩
      refine ⟨x, said, ?_⟩
      rw [← chosen]
      rfl
  | noSamples =>
    rw [set, Except.ok.injEq]
    constructor
    · rintro rfl
      exact ⟨rfl, unset⟩
    · rintro ⟨chosen, rfl⟩
      rw [Follows] at chosen
      rw [← chosen]
      rfl
  | out =>
    rw [set]
    by_cases empty : value = []
    · rw [if_pos empty]
      constructor
      · rintro ⟨⟩
      · rintro ⟨⟨-, nonempty⟩, -⟩
        exact absurd empty nonempty
    · rw [if_neg empty, Except.ok.injEq]
      constructor
      · rintro rfl
        exact ⟨⟨rfl, empty⟩, unset⟩
      · rintro ⟨⟨chosen, -⟩, rfl⟩
        rw [← chosen]
        rfl
  | help => exact absurd rfl option

/-! ### All options -/

variable {given : List (Opt × List Char)}

def takeAll (choices : Choices) : List (Opt × List Char) → Except UsageError Choices
  | [] => .ok choices
  | (opt, value) :: given =>
    match choices.take opt value with
    | .error e => .error e
    | .ok choices => choices.takeAll given

def withoutAll (choices : Choices) (opts : List Opt) : Choices := opts.foldr (flip without) choices

theorem withoutAll_cons (choices : Choices) (opt : Opt) (opts : List Opt) :
    choices.withoutAll (opt :: opts) = (choices.withoutAll opts).without opt := rfl

theorem has_withoutAll (choices : Choices) (opts : List Opt) :
    (choices.withoutAll opts).has opt = (choices.has opt && opt ∉ opts) := by
  induction opts with
  | nil => simp [withoutAll]
  | cons here opts ih =>
    rw [withoutAll_cons]
    by_cases same : opt = here
    · subst same
      simp [has_without]
    · simp [has_without_of_ne same, ih, same]

theorem follows_withoutAll {opts : List Opt} (apart : opt ∉ opts) :
    (choices.withoutAll opts).Follows value opt ↔ choices.Follows value opt := by
  induction opts with
  | nil => rfl
  | cons here opts ih =>
    rw [List.mem_cons, not_or] at apart
    obtain ⟨different, others⟩ := apart
    rw [withoutAll_cons, follows_without_of_ne different, ih others]

/-- Options are taken in just if each is given once and says what is chosen in the end. -/
theorem takeAll_eq_ok (options : ∀ option ∈ given, option.1 ≠ .help) :
    start.takeAll given = .ok last ↔
      (given.map Prod.fst).Nodup ∧ (∀ option ∈ given, last.Follows option.2 option.1) ∧
        last.withoutAll (given.map Prod.fst) = start := by
  induction given generalizing start with
  | nil => simp [takeAll, withoutAll, eq_comm]
  | cons option given ih =>
    obtain ⟨opt, value⟩ := option
    obtain ⟨here, others⟩ := List.forall_mem_cons.1 options
    rw [List.map_cons, List.nodup_cons, List.forall_mem_cons, withoutAll_cons]
    constructor
    · intro taken
      rw [takeAll] at taken
      cases first : start.take opt value with
      | error e =>
        rw [first] at taken
        cases taken
      | ok next =>
        rw [first] at taken
        obtain ⟨once, follows, rest⟩ := (ih others).1 taken
        obtain ⟨follows', before⟩ := (take_eq_ok here).1 first
        rw [← rest] at follows' before
        have fresh : opt ∉ given.map Prod.fst := by
          intro again
          have := has_of_follows follows'
          simp [has_withoutAll, again] at this
        exact ⟨⟨fresh, once⟩, ⟨(follows_withoutAll fresh).1 follows', follows⟩, before⟩
    · rintro ⟨⟨fresh, once⟩, ⟨follows', follows⟩, before⟩
      have first := (take_eq_ok here).2 ⟨(follows_withoutAll fresh).2 follows', before⟩
      rw [takeAll, first]
      exact (ih others).2 ⟨once, follows, rfl⟩

/-- To take options in from the start is to choose what they say. -/
theorem madeBy_iff (options : ∀ option ∈ given, option.1 ≠ .help) :
    last.MadeBy given ↔ blank.takeAll given = .ok last := by
  rw [takeAll_eq_ok options]
  constructor
  · rintro ⟨once, follows, others⟩
    refine ⟨once, follows, eq_blank ?_⟩
    intro opt
    rw [has_withoutAll]
    by_cases member : opt ∈ given.map Prod.fst
    · simp [member]
    · simp [others opt member]
  · rintro ⟨once, follows, before⟩
    refine ⟨once, follows, ?_⟩
    intro opt absent
    have unset : (last.withoutAll (given.map Prod.fst)).has opt = false := by
      rw [before]
      cases opt <;> rfl
    simpa [has_withoutAll, absent] using unset

end Choices

/-! ### One argument -/

variable {pending : Option Pending} {texts rest arguments : List (List Char)}
  {given : List (Opt × List Char)} {request : Request} {next : Choices}

/-- An argument stands for itself just if a dash does not begin it, or is all of it. -/
theorem argument_plain_iff : Argument.of value = .plain ↔ Plain value := by
  constructor
  · rintro plain c rest rfl
    unfold Argument.of at plain
    split at plain <;> simp_all
  · intro plain
    unfold Argument.of
    split
    · exact absurd rfl (plain '-' [])
    · exact absurd rfl (plain '-' _)
    · exact absurd rfl (plain _ _)
    · rfl

theorem argument_named (opt : Opt) :
    Argument.of ('-' :: '-' :: opt.name.toList) = .long opt.name.toList none := by
  cases opt <;> decide

theorem argument_attached (opt : Opt) (value : List Char) :
    Argument.of ('-' :: '-' :: (opt.name.toList ++ '=' :: value)) =
      .long opt.name.toList (some value) := by
  cases opt <;> rfl

theorem ofName?_name (opt : Opt) : Opt.ofName? opt.name.toList = some opt := by
  cases opt <;> decide

theorem name_of_ofName? {name : List Char} (found : Opt.ofName? name = some opt) :
    name = opt.name.toList := by
  have := List.find?_some found
  simpa [eq_comm] using this

theorem spelt_ne_help (spelt : Spelt opt value texts) : opt ≠ .help := by
  cases spelt with
  | attached takes => rintro rfl; cases takes
  | apart takes => rintro rfl; cases takes
  | bare => decide

/-! ### The reader takes the language -/

/-- An option that is given is taken in now or, if its value is an argument of its own, when the
next one is met. -/
theorem scan_spelt (rest : List (List Char)) (settled : settle choices pending = .ok start)
    (spelt : Spelt opt value texts) (taken : start.take opt value = .ok next) :
    ∃ choices' pending', scan choices pending (texts ++ rest) = scan choices' pending' rest ∧
      settle choices' pending' = .ok next := by
  cases spelt with
  | attached takes =>
    refine ⟨next, none, ?_, rfl⟩
    simp only [List.cons_append, List.nil_append]
    rw [scan.eq_def]
    simp only [argument_attached, ofName?_name, takes, if_true, settled, taken]
  | apart takes plain =>
    refine ⟨start, some ⟨opt, some value⟩, ?_, taken⟩
    simp only [List.cons_append, List.nil_append]
    rw [scan.eq_def]
    simp only [argument_named, ofName?_name, takes, if_true, settled]
    rw [scan.eq_def]
    simp only [argument_plain_iff.2 plain]
  | bare =>
    refine ⟨next, none, ?_, rfl⟩
    simp only [List.cons_append, List.nil_append]
    rw [scan.eq_def]
    have bare : Opt.noSamples.takesValue = false := rfl
    simp only [argument_named, ofName?_name, bare, settled, taken, Bool.false_eq_true, if_false,
      reduceCtorEq]

/-- Options are read one after the other, the last one being pending perhaps. -/
theorem scan_options (rest : List (List Char)) (options : Options given texts)
    (settled : settle choices pending = .ok start) (taken : start.takeAll given = .ok last) :
    ∃ choices' pending', scan choices pending (texts ++ rest) = scan choices' pending' rest ∧
      settle choices' pending' = .ok last := by
  induction options generalizing choices pending start with
  | nil =>
    cases taken
    exact ⟨choices, pending, rfl, settled⟩
  | @cons opt value texts arguments given spelt _ ih =>
    rw [Choices.takeAll] at taken
    cases first : start.take opt value with
    | error e =>
      rw [first] at taken
      cases taken
    | ok next =>
      rw [first] at taken
      obtain ⟨choices', pending', here, settled'⟩ :=
        scan_spelt (arguments ++ rest) settled spelt first
      obtain ⟨choices'', pending'', others, settled''⟩ := ih settled' taken
      rw [List.append_assoc, here, others]
      exact ⟨choices'', pending'', rfl, settled''⟩

inductive Ending : List (List Char) → Choices → Request → Prop where
  | measure {closing : List (List Char)} {last : Choices} : Closing closing →
      Ending closing last (.measure last.plan)
  | help {argument : List Char} {rest : List (List Char)} {last : Choices} {long : Bool} :
      HelpArgument long argument → Ending (argument :: rest) last (.help long)

theorem scan_ending (settled : settle choices pending = .ok last)
    (ends : Ending arguments last request) : scan choices pending arguments = .ok request := by
  cases ends with
  | measure closing =>
    rcases closing with rfl | rfl
    · rw [scan.eq_def, settled]
      rfl
    · rw [scan.eq_def]
      have divider : Argument.of ['-', '-'] = .divider := rfl
      simp only [divider, settled]
      rfl
  | help asks =>
    cases asks with
    | long =>
      have bare : Opt.help.takesValue = false := rfl
      rw [scan.eq_def]
      simp only [argument_named, ofName?_name, settled, bare, Bool.false_eq_true, if_false, if_true]
    | short letters =>
      have short : Argument.of ('-' :: 'h' :: letters) = .short 'h' := rfl
      rw [scan.eq_def]
      simp only [short, settled, if_true]
      rfl

/-! ### The reader takes nothing else -/

/-- An option that waits for its value takes the next argument. -/
theorem scan_awaiting (h : scan choices (some ⟨opt, none⟩) arguments = .ok request) :
    ∃ value rest, arguments = value :: rest ∧ Plain value ∧
      scan choices (some ⟨opt, some value⟩) rest = .ok request := by
  rw [scan.eq_def] at h
  split at h
  · cases h
  · rename_i argument rest
    split at h
    · split at h <;> cases h
    · split at h <;> cases h
    · rename_i plain
      exact ⟨argument, rest, rfl, argument_plain_iff.1 plain, h⟩
    · split at h
      · cases h
      · split at h <;> cases h
      · cases h

/-- Every reader of the choices so far looks at the option that is pending first. -/
theorem exists_settled (here : ∀ opt, pending ≠ some ⟨opt, none⟩)
    (h : scan choices pending arguments = .ok request) :
    ∃ start, settle choices pending = .ok start := by
  cases settled : settle choices pending with
  | ok start => exact ⟨start, rfl⟩
  | error e =>
    rw [scan.eq_def] at h
    simp only [settled] at h
    split at h
    · cases h
    · split at h
      · split at h <;> cases h
      · split at h <;> cases h
      · cases h
      · split at h
        · cases h
        · split at h <;> cases h
        · cases h

theorem splitAtEquals_eq (text : List Char) :
    text = (splitAtEquals text).1 ++ ((splitAtEquals text).2.map ('=' :: ·)).getD [] := by
  rw [splitAtEquals]
  split
  · simp
  · rename_i c value after
    have equals := List.head?_dropWhile_not (fun c => decide (c ≠ '=')) text
    rw [after] at equals
    obtain rfl : c = '=' := by simpa using equals
    have parts := List.takeWhile_append_dropWhile (p := fun c => decide (c ≠ '=')) (l := text)
    rw [after] at parts
    exact parts.symm

/-- Two dashes, a name, and the value if one is attached. -/
theorem argument_eq_long {argument name : List Char} {value : Option (List Char)}
    (named : Argument.of argument = .long name value) :
    argument = '-' :: '-' :: (name ++ (value.map ('=' :: ·)).getD []) := by
  unfold Argument.of at named
  split at named
  · cases named
  · rename_i rest _
    obtain ⟨rfl, rfl⟩ := Argument.long.inj named
    exact congrArg (fun text => '-' :: '-' :: text) (splitAtEquals_eq rest)
  · cases named
  · cases named

theorem argument_eq_short {argument : List Char} {letter : Char}
    (short : Argument.of argument = .short letter) :
    ∃ letters, argument = '-' :: letter :: letters := by
  unfold Argument.of at short
  split at short
  · cases short
  · cases short
  · cases short
    exact ⟨_, rfl⟩
  · cases short

theorem argument_eq_divider {argument : List Char} (divider : Argument.of argument = .divider) :
    argument = ['-', '-'] := by
  unfold Argument.of at divider
  split at divider
  · rfl
  all_goals cases divider

/-- What a reader that comes to an end meets first: the end, or an option that it can take in, after
which it reads on. -/
inductive Turn (request : Request) : Choices → List (List Char) → Prop where
  | ended {start : Choices} {ending : List (List Char)} : Ending ending start request →
      Turn request start ending
  | option {opt : Opt} {value : List Char} {texts rest : List (List Char)}
      {start next choices : Choices} {pending : Option Pending} : Spelt opt value texts →
      start.take opt value = .ok next → settle choices pending = .ok next →
      scan choices pending rest = .ok request → Turn request start (texts ++ rest)

theorem turn_attached (settled : settle choices pending = .ok start)
    (h : scan choices pending (('-' :: '-' :: (opt.name.toList ++ '=' :: value)) :: rest) =
      .ok request) :
    Turn request start (('-' :: '-' :: (opt.name.toList ++ '=' :: value)) :: rest) := by
  rw [scan.eq_def] at h
  simp only [argument_attached, ofName?_name, settled] at h
  split at h
  · rename_i takes
    cases taken : start.take opt value with
    | error e =>
      rw [taken] at h
      cases h
    | ok next =>
      rw [taken] at h
      exact .option (.attached takes) taken rfl h
  · cases h

theorem turn_named (settled : settle choices pending = .ok start)
    (h : scan choices pending (('-' :: '-' :: opt.name.toList) :: rest) = .ok request) :
    Turn request start (('-' :: '-' :: opt.name.toList) :: rest) := by
  rw [scan.eq_def] at h
  simp only [argument_named, ofName?_name, settled] at h
  split at h
  · rename_i takes
    obtain ⟨value, rest, rfl, plain, h⟩ := scan_awaiting h
    obtain ⟨next, taken⟩ := exists_settled (by simp) h
    exact .option (.apart takes plain) taken taken h
  · rename_i bare
    split at h
    · rename_i help
      cases h
      subst help
      exact .ended (.help .long)
    · rename_i other
      obtain rfl : opt = .noSamples := by
        cases opt <;> simp_all [Opt.takesValue, Opt.placeholder]
      cases taken : start.take .noSamples [] with
      | error e =>
        rw [taken] at h
        cases h
      | ok next =>
        rw [taken] at h
        exact .option .bare taken rfl h

/-- What a scan that comes to an end begins with. -/
theorem turn_of_scan (settled : settle choices pending = .ok start)
    (h : scan choices pending arguments = .ok request) : Turn request start arguments := by
  cases arguments with
  | nil =>
    rw [scan.eq_def, settled] at h
    cases h
    exact .ended (.measure (.inl rfl))
  | cons argument rest =>
    cases kind : Argument.of argument with
    | divider =>
      rw [scan.eq_def] at h
      simp only [kind] at h
      cases rest with
      | nil =>
        rw [settled] at h
        cases h
        exact .ended (.measure (.inr (by rw [argument_eq_divider kind])))
      | cons => cases h
    | short letter =>
      rw [scan.eq_def] at h
      simp only [kind] at h
      split at h
      · rename_i help
        rw [settled] at h
        cases h
        obtain ⟨letters, rfl⟩ := argument_eq_short kind
        subst help
        exact .ended (.help (.short letters))
      · cases h
    | plain =>
      rw [scan.eq_def] at h
      simp only [kind] at h
      split at h
      · cases settled
      · cases h
    | long name value =>
      have known : ∃ opt, Opt.ofName? name = some opt := by
        rw [scan.eq_def] at h
        simp only [kind] at h
        split at h
        · cases h
        · exact ⟨_, ‹_›⟩
        · exact ⟨_, ‹_›⟩
      obtain ⟨opt, known⟩ := known
      obtain rfl := name_of_ofName? known
      obtain rfl := argument_eq_long kind
      cases value with
      | none =>
        rw [Option.map_none, Option.getD_none, List.append_nil] at h ⊢
        exact turn_named settled h
      | some value => exact turn_attached settled h

theorem length_pos_of_spelt (spelt : Spelt opt value texts) : 0 < texts.length := by
  cases spelt <;> exact Nat.succ_pos _

/-- The arguments that a reader comes to an end with are options that it can take in, and an end. -/
theorem exists_options (settled : settle choices pending = .ok start)
    (h : scan choices pending arguments = .ok request) :
    ∃ given texts ending last, arguments = texts ++ ending ∧ Options given texts ∧
      start.takeAll given = .ok last ∧ Ending ending last request := by
  -- An option may take up two arguments at once, so the induction is on how many are left.
  induction size : arguments.length using Nat.strongRecOn
    generalizing choices pending start arguments with
  | ind size ih =>
    subst size
    cases turn_of_scan settled h with
    | ended ends => exact ⟨[], [], arguments, start, rfl, .nil, rfl, ends⟩
    | @option opt value texts rest _ next _ _ spelt taken settled' onward =>
      have shorter : rest.length < (texts ++ rest).length := by
        have := length_pos_of_spelt spelt
        rw [List.length_append]
        omega
      obtain ⟨given, texts', ending, last, rfl, options, all, ends⟩ :=
        ih _ shorter settled' onward rfl
      refine ⟨(opt, value) :: given, texts ++ texts', ending, last, ?_, .cons spelt options, ?_,
        ends⟩
      · rw [List.append_assoc]
      · rw [Choices.takeAll, taken]
        exact all

/-! ### The language of the reader -/

theorem options_ne_help (options : Options given texts) : ∀ option ∈ given, option.1 ≠ .help := by
  induction options with
  | nil =>
    intro option member
    cases member
  | cons spelt _ ih => exact List.forall_mem_cons.2 ⟨spelt_ne_help spelt, ih⟩

/-- The arguments that are accepted, and what they ask for. -/
theorem parse_eq_ok_iff {arguments : List String} :
    parse arguments = .ok request ↔
      ∃ given texts ending, ∃ choices : Choices, arguments.map String.toList = texts ++ ending ∧
        Options given texts ∧ choices.MadeBy given ∧ Ending ending choices request := by
  rw [parse]
  constructor
  · intro read
    obtain ⟨given, texts, ending, choices, split, options, taken, ends⟩ := exists_options rfl read
    exact ⟨given, texts, ending, choices, split, options,
      (Choices.madeBy_iff (options_ne_help options)).2 taken, ends⟩
  · rintro ⟨given, texts, ending, choices, split, options, made, ends⟩
    have nothing : settle .blank none = .ok .blank := rfl
    obtain ⟨choices', pending, read, settled⟩ := scan_options ending options nothing
      ((Choices.madeBy_iff (options_ne_help options)).1 made)
    rw [split, read]
    exact scan_ending settled ends

/-- A measurement is planned exactly for the arguments that ask for one. -/
theorem parse_eq_measure_iff {arguments : List String} {plan : Plan} :
    parse arguments = .ok (.measure plan) ↔
      ∃ choices, AskMeasurement arguments choices ∧ choices.plan = plan := by
  rw [parse_eq_ok_iff]
  constructor
  · rintro ⟨given, texts, ending, choices, split, options, made, ⟨closing⟩⟩
    exact ⟨choices, ⟨given, texts, ending, split, options, made, closing⟩, rfl⟩
  · rintro ⟨choices, ⟨given, texts, ending, split, options, made, closing⟩, rfl⟩
    exact ⟨given, texts, ending, choices, split, options, made, .measure closing⟩

/-- Help is given exactly for the arguments that ask for it. -/
theorem parse_eq_help_iff {arguments : List String} {long : Bool} :
    parse arguments = .ok (.help long) ↔ AskHelp arguments long := by
  rw [parse_eq_ok_iff]
  constructor
  · rintro ⟨given, texts, ending, choices, split, options, made, ends⟩
    cases ends with
    | help asks => exact ⟨given, texts, _, _, choices, split, options, made, asks⟩
  · rintro ⟨given, texts, argument, rest, choices, split, options, made, asks⟩
    exact ⟨given, texts, argument :: rest, choices, split, options, made, .help asks⟩

/-- Arguments that ask for nothing are misused. -/
theorem parse_eq_error {arguments : List String}
    (noMeasurement : ∀ choices, ¬ AskMeasurement arguments choices)
    (noHelp : ∀ long, ¬ AskHelp arguments long) : ∃ e, parse arguments = .error e := by
  cases parsed : parse arguments with
  | error e => exact ⟨e, rfl⟩
  | ok request =>
    cases request with
    | help long => exact absurd (parse_eq_help_iff.1 parsed) (noHelp long)
    | measure plan =>
      obtain ⟨choices, asked, -⟩ := parse_eq_measure_iff.1 parsed
      exact absurd asked (noMeasurement choices)

end MicroBench.CommandLine
