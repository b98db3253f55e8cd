import MicroBench.Plugin
import MicroBench.Proofs.CommandLine.Arguments
import MicroBench.Proofs.Text.Count

/-! Options in any order and spelling. A list of options, each given once and with a value
that it admits, always makes one plan. A default that is given changes nothing, a count of
the preset nothing that is done, and an option that is given again spoils the arguments
wherever it stands. -/
namespace MicroBench.CommandLine

variable {opt other : Opt} {value : List Char} {choices next : Choices}
  {given given' : List (Opt × List Char)} {texts : List (List Char)} {arguments : List String}
  {plan : Plan}

/-! ### Options and their values -/

def Opt.Admits : Opt → List Char → Prop
  | .workload, value => ∃ workload : Workload, workload.name.toList = value
  | .profile, value => ∃ profile : Profile, profile.name.toList = value
  | .iterations, value | .warmup, value | .size, value | .seed, value => ∃ n, Text.Counts value n
  | .noSamples, value => value = []
  | .out, value => value ≠ []
  | .help, _ => False

structure Valid (given : List (Opt × List Char)) : Prop where
  once : (given.map Prod.fst).Nodup
  admits : ∀ option ∈ given, option.1.Admits option.2

/-- The arguments give these options their values, in this order, each in one of its spellings. -/
def Gives (arguments : List String) (given : List (Opt × List Char)) : Prop :=
  Options given (arguments.map String.toList)

def Plan.Heeds (plan : Plan) (value : List Char) : Opt → Prop
  | .workload => plan.workload.name.toList = value
  | .profile => plan.config.profile.name.toList = value
  | .iterations => Text.Counts value plan.config.iterationCount
  | .warmup => Text.Counts value plan.config.warmupCount
  | .size => Text.Counts value plan.config.size
  | .seed => Text.Counts value plan.config.seed
  | .noSamples => plan.config.captureSamples = false
  | .out => plan.out = some value
  | .help => False

/-- The values that say what is chosen anyway. -/
def Opt.Default : Opt → List Char → Prop
  | .workload, value => value = Workload.sum.name.toList
  | .profile, value => value = Profile.quick.name.toList
  | .size, value => Text.Counts value 1024
  | .seed, value => Text.Counts value 0
  | _, _ => False

def Plan.Preset (plan : Plan) : Opt → List Char → Prop
  | .iterations, value => Text.Counts value plan.config.profile.iterations
  | .warmup, value => Text.Counts value plan.config.profile.warmup
  | _, _ => False

def Plan.settled (plan : Plan) : Plan :=
  { plan with
    config :=
      { plan.config with
        iterations := some plan.config.iterationCount
        warmup := some plan.config.warmupCount } }

/-- What is done depends on the counts that are run, and not on where they come from. -/
theorem carryOut_settled {m : Type → Type} [Monad m] (host : Host m) (filter : Log.Filter)
    (plan : Plan) : Plugin.carryOut host filter plan = Plugin.carryOut host filter plan.settled :=
  rfl

/-- A default could be given by its option. -/
theorem admits_of_default (default : opt.Default value) : opt.Admits value := by
  cases opt with
  | workload => exact ⟨.sum, default.symm⟩
  | profile => exact ⟨.quick, default.symm⟩
  | size | seed => exact ⟨_, default⟩
  | iterations | warmup | noSamples | out | help => exact default.elim

theorem admits_of_preset (preset : plan.Preset opt value) : opt.Admits value := by
  cases opt with
  | iterations | warmup => exact ⟨_, preset⟩
  | workload | profile | size | seed | noSamples | out | help => exact preset.elim

theorem ne_help_of_admits (admits : opt.Admits value) : opt ≠ .help := by
  rintro rfl
  exact admits

/-! ### Options make choices -/

namespace Choices

/-- An option that was not given yet is taken in with every value that it admits. -/
theorem exists_take (absent : choices.has opt = false) (admits : opt.Admits value) :
    ∃ next, choices.take opt value = .ok next := by
  rw [take, absent, if_neg Bool.false_ne_true]
  cases opt with
  | workload | profile | iterations | warmup | size | seed =>
    simp only [set, map_eq_ok, choiceOf_workload, choiceOf_profile, countOf_eq_ok,
      Text.readCount_eq_ok_iff]
    obtain ⟨x, said⟩ := admits
    exact ⟨_, x, said, rfl⟩
  | noSamples => exact ⟨_, rfl⟩
  | out => exact ⟨_, if_neg admits⟩
  | help => exact admits.elim

theorem madeBy_nil : blank.MadeBy [] where
  once := List.nodup_nil
  follows := by simp
  others opt _ := by cases opt <;> rfl

/-- One more option adds its choice. -/
theorem madeBy_cons (made : choices.MadeBy given) (fresh : opt ∉ given.map Prod.fst)
    (option : opt ≠ .help) (taken : choices.take opt value = .ok next) :
    next.MadeBy ((opt, value) :: given) := by
  obtain ⟨follows, rfl⟩ := (take_eq_ok option).1 taken
  constructor
  case once => exact List.nodup_cons.2 ⟨fresh, made.once⟩
  case follows =>
    rw [List.forall_mem_cons]
    refine ⟨follows, ?_⟩
    intro earlier member
    have apart : earlier.1 ≠ opt := by
      rintro rfl
      exact fresh (List.mem_map_of_mem member)
    exact (follows_without_of_ne apart).1 (made.follows earlier member)
  case others =>
    intro other absent
    rw [List.map_cons, List.mem_cons, not_or] at absent
    rw [← has_without_of_ne absent.1]
    exact made.others other absent.2

/-- Every valid list of options makes choices. -/
theorem exists_madeBy (valid : Valid given) : ∃ choices : Choices, choices.MadeBy given := by
  induction given with
  | nil => exact ⟨blank, madeBy_nil⟩
  | cons option given ih =>
    obtain ⟨opt, value⟩ := option
    obtain ⟨once, admits⟩ := valid
    rw [List.map_cons, List.nodup_cons] at once
    obtain ⟨here, others⟩ := List.forall_mem_cons.1 admits
    obtain ⟨choices, made⟩ := ih ⟨once.2, others⟩
    obtain ⟨next, taken⟩ := exists_take (made.others opt once.1) here
    exact ⟨next, madeBy_cons made once.1 (ne_help_of_admits here) taken⟩

/-- The order of the options does not matter to what they choose. -/
theorem madeBy_perm (perm : given'.Perm given) (made : choices.MadeBy given) :
    choices.MadeBy given' := by
  have names := perm.map Prod.fst
  constructor
  case once => exact names.nodup_iff.2 made.once
  case follows =>
    intro option member
    exact made.follows option (perm.mem_iff.1 member)
  case others =>
    intro opt absent
    exact made.others opt (mt names.mem_iff.2 absent)

end Choices

/-- Whatever the order and the spelling, the plan is the one of the choices. -/
theorem parse_of_gives (made : choices.MadeBy given) (perm : given'.Perm given)
    (gives : Gives arguments given') : parse arguments = .ok (.measure choices.plan) := by
  rw [parse_eq_measure_iff]
  have whole : arguments.map String.toList = arguments.map String.toList ++ [] :=
    (List.append_nil _).symm
  exact ⟨choices, ⟨given', _, [], whole, gives, Choices.madeBy_perm perm made, .inl rfl⟩, rfl⟩

/-- What was chosen is what the plan does. -/
theorem heeds_of_follows (follows : choices.Follows value opt) : choices.plan.Heeds value opt := by
  cases opt with
  | workload | profile =>
    obtain ⟨x, chosen, named⟩ := follows
    simpa [Plan.Heeds, Choices.plan, chosen] using named
  | iterations | warmup | size | seed =>
    obtain ⟨n, chosen, read⟩ := follows
    simpa [Plan.Heeds, Choices.plan, Config.iterationCount, Config.warmupCount, chosen] using
      Text.readCount_eq_ok_iff.1 read
  | noSamples =>
    rw [Choices.Follows] at follows
    simp [Plan.Heeds, Choices.plan, follows]
  | out => exact follows.1
  | help => exact follows.elim

/-! ### Defaults and presets -/

theorem workload_name_inj {workload workload' : Workload}
    (same : workload.name.toList = workload'.name.toList) : workload = workload' := by
  cases workload <;> cases workload' <;> first | rfl | exact absurd same (by decide)

theorem profile_name_inj {profile profile' : Profile}
    (same : profile.name.toList = profile'.name.toList) : profile = profile' := by
  cases profile <;> cases profile' <;> first | rfl | exact absurd same (by decide)

theorem count_unique {n n' : UInt64} (read : Text.readCount value = .ok n)
    (counts : Text.Counts value n') : n = n' := by
  rw [Text.readCount_eq_ok_iff.2 counts] at read
  exact (Except.ok.inj read).symm

/-- To choose a default is to choose nothing. -/
theorem plan_of_default (default : opt.Default value) (follows : next.Follows value opt) :
    next.plan = (next.without opt).plan := by
  cases opt with
  | workload =>
    obtain ⟨workload, chosen, named⟩ := follows
    obtain rfl := workload_name_inj (named.trans default)
    simp [Choices.plan, Choices.without, chosen, Workload.standard]
  | profile =>
    obtain ⟨profile, chosen, named⟩ := follows
    obtain rfl := profile_name_inj (named.trans default)
    simp [Choices.plan, Choices.without, chosen]
  | size | seed =>
    obtain ⟨n, chosen, read⟩ := follows
    obtain rfl := count_unique read default
    simp [Choices.plan, Choices.without, chosen]
  | iterations | warmup | noSamples | out | help => exact default.elim

/-- To choose a count of the preset changes nothing in what is run. -/
theorem settled_of_preset (preset : (next.without opt).plan.Preset opt value)
    (follows : next.Follows value opt) :
    next.plan.settled = (next.without opt).plan.settled := by
  cases opt with
  | iterations | warmup =>
    obtain ⟨n, chosen, read⟩ := follows
    obtain rfl := count_unique read preset
    simp [Plan.settled, Config.iterationCount, Config.warmupCount, Choices.plan, Choices.without,
      chosen]
  | workload | profile | size | seed | noSamples | out | help => exact preset.elim

/-- The choices that one more option makes, and that they were the same before it. -/
theorem exists_madeBy_cons (made : choices.MadeBy given) (fresh : opt ∉ given.map Prod.fst)
    (admits : opt.Admits value) :
    ∃ next : Choices, next.MadeBy ((opt, value) :: given) ∧ next.Follows value opt ∧
      next.without opt = choices := by
  have option := ne_help_of_admits admits
  obtain ⟨next, taken⟩ := Choices.exists_take (made.others opt fresh) admits
  obtain ⟨follows, before⟩ := (Choices.take_eq_ok option).1 taken
  exact ⟨next, Choices.madeBy_cons made fresh option taken, follows, before⟩

/-! ### Options given again -/

def names (opt : Opt) (argument : List Char) : Bool :=
  match Argument.of argument with
  | .long name _ => name = opt.name.toList
  | _ => false

theorem name_inj : other.name.toList = opt.name.toList ↔ other = opt := by
  constructor
  · intro same
    have found := ofName?_name other
    rw [same, ofName?_name opt] at found
    exact (Option.some.inj found).symm
  · rintro rfl
    rfl

theorem names_named : names opt ('-' :: '-' :: other.name.toList) = decide (other = opt) := by
  simp only [names, argument_named, name_inj]

theorem names_attached :
    names opt ('-' :: '-' :: (other.name.toList ++ '=' :: value)) = decide (other = opt) := by
  simp only [names, argument_attached, name_inj]

theorem names_plain (plain : Plain value) : names opt value = false := by
  simp only [names, argument_plain_iff.2 plain]

/-- An option is named once where it is given, and no other one is named there. -/
theorem countP_names_of_spelt (spelt : Spelt other value texts) :
    texts.countP (names opt) = if other = opt then 1 else 0 := by
  cases spelt with
  | attached => simp [List.countP_cons, names_attached]
  | apart _ plain => simp [List.countP_cons, names_named, names_plain plain]
  | bare => simp [List.countP_cons, names_named]

/-- As many arguments name an option as it is given times. -/
theorem countP_names (options : Options given texts) :
    texts.countP (names opt) = (given.map Prod.fst).count opt := by
  induction options with
  | nil => rfl
  | @cons other value texts arguments given spelt _ ih =>
    rw [List.countP_append, ih, List.map_cons, List.count_cons, countP_names_of_spelt spelt,
      Nat.add_comm]
    simp

theorem countP_names_closing (closing : Closing texts) : texts.countP (names opt) = 0 := by
  rcases closing with rfl | rfl <;> rfl

/-- What gives an option its value names the option, or stands for itself. -/
theorem argument_of_spelt {argument : List Char} (spelt : Spelt opt value texts)
    (member : argument ∈ texts) :
    (∃ attached, Argument.of argument = .long opt.name.toList attached) ∨ Plain argument := by
  cases spelt with
  | attached =>
    obtain rfl := List.mem_singleton.1 member
    exact .inl ⟨_, argument_attached _ _⟩
  | apart _ plain =>
    rw [List.mem_cons, List.mem_singleton] at member
    rcases member with rfl | rfl
    · exact .inl ⟨_, argument_named _⟩
    · exact .inr plain
  | bare =>
    obtain rfl := List.mem_singleton.1 member
    exact .inl ⟨_, argument_named _⟩

theorem not_help_of_spelt {argument : List Char} {long : Bool} (spelt : Spelt opt value texts)
    (member : argument ∈ texts) : ¬ HelpArgument long argument := by
  intro help
  rcases argument_of_spelt spelt member with ⟨attached, named⟩ | plain
  · cases help with
    | long =>
      rw [argument_named] at named
      exact spelt_ne_help spelt (name_inj.1 (Argument.long.inj named).1.symm)
    | short => cases named
  · cases help <;> exact plain _ _ rfl

/-- Nothing that gives options asks for help. -/
theorem not_help_of_options {argument : List Char} {long : Bool} (options : Options given texts)
    (member : argument ∈ texts) : ¬ HelpArgument long argument := by
  induction options with
  | nil => cases member
  | cons spelt _ ih =>
    rcases List.mem_append.1 member with here | there
    · exact not_help_of_spelt spelt here
    · exact ih there

/-- Where a measurement is asked for, no option is named more than once. -/
theorem countP_names_le_one (asked : AskMeasurement arguments choices) :
    (arguments.map String.toList).countP (names opt) ≤ 1 := by
  obtain ⟨given, texts, closing, split, options, made, closes⟩ := asked
  rw [split, List.countP_append, countP_names options, countP_names_closing closes]
  exact List.nodup_iff_count.1 made.once opt

/-- Options of which one is given again, wherever that is, are misused. -/
theorem parse_of_repeated {before extra after : List String}
    (member : opt ∈ given.map Prod.fst) (gives : Gives (before ++ after) given)
    (again : Spelt opt value (extra.map String.toList)) :
    ∃ e, parse (before ++ extra ++ after) = .error e := by
  apply parse_eq_error
  · intro choices asked
    have most : ((before ++ extra ++ after).map String.toList).countP (names opt) ≤ 1 :=
      countP_names_le_one asked
    have first : ((before ++ after).map String.toList).countP (names opt) =
        (given.map Prod.fst).count opt := countP_names gives
    have second : (extra.map String.toList).countP (names opt) = 1 :=
      (countP_names_of_spelt again).trans (if_pos rfl)
    have once := List.count_pos_iff.2 member
    simp only [List.map_append, List.countP_append] at most first
    omega
  · rintro long ⟨_, texts, argument, rest, _, split, -, -, help⟩
    have asks : argument ∈ (before ++ extra ++ after).map String.toList := by
      rw [split]
      exact List.mem_append_right _ List.mem_cons_self
    rw [Gives, List.map_append] at gives
    rw [List.map_append, List.map_append, List.mem_append, List.mem_append] at asks
    rcases asks with (first | within) | last
    · exact not_help_of_options gives (List.mem_append_left _ first) help
    · exact not_help_of_spelt again within help
    · exact not_help_of_options gives (List.mem_append_right _ last) help

/-! ### Valid options -/

/-- The plan is what the options ask for, however they are put. -/
structure Plan.Answers (plan : Plan) (given : List (Opt × List Char)) : Prop where
  /-- It does what every value says. -/
  heeds : ∀ option ∈ given, plan.Heeds option.2 option.1
  /-- It is made of the options in every order and every spelling. -/
  reordered : ∀ arguments given', given'.Perm given → Gives arguments given' →
    parse arguments = .ok (.measure plan)
  /-- To leave an option out is to give it its default. -/
  defaulted : ∀ arguments given' opt value, opt ∉ given.map Prod.fst → opt.Default value →
    given'.Perm ((opt, value) :: given) → Gives arguments given' →
    parse arguments = .ok (.measure plan)
  /-- To leave a count out is to run the one of the preset, and to do the same. -/
  preset : ∀ arguments given' opt value, opt ∉ given.map Prod.fst → plan.Preset opt value →
    given'.Perm ((opt, value) :: given) → Gives arguments given' →
    ∃ plan' : Plan, parse arguments = .ok (.measure plan') ∧ plan'.settled = plan.settled ∧
      ∀ {m : Type → Type} [Monad m] (host : Host m) (filter : Log.Filter),
        Plugin.carryOut host filter plan' = Plugin.carryOut host filter plan
  /-- To give an option again is misuse, wherever that is and whatever its value. -/
  repeated : ∀ before extra after given' opt value, opt ∈ given.map Prod.fst →
    given'.Perm given → Gives (before ++ after) given' →
    Spelt opt value (extra.map String.toList) →
    ∃ e, parse (before ++ extra ++ after) = .error e

/-- Valid options make one plan: their order and their spelling do not matter to it, defaults and
counts of the preset may be left out, and no option may be given again. -/
theorem valid_options_planned (valid : Valid given) : ∃ plan : Plan, plan.Answers given := by
  obtain ⟨choices, made⟩ := Choices.exists_madeBy valid
  refine ⟨choices.plan, ?_⟩
  constructor
  case heeds =>
    intro option member
    exact heeds_of_follows (made.follows option member)
  case reordered =>
    intro arguments given' perm gives
    exact parse_of_gives made perm gives
  case defaulted =>
    intro arguments given' opt value fresh default perm gives
    obtain ⟨next, made', follows, rfl⟩ := exists_madeBy_cons made fresh (admits_of_default default)
    rw [parse_of_gives made' perm gives, plan_of_default default follows]
  case preset =>
    intro arguments given' opt value fresh preset perm gives
    obtain ⟨next, made', follows, rfl⟩ := exists_madeBy_cons made fresh (admits_of_preset preset)
    have same := settled_of_preset preset follows
    refine ⟨next.plan, parse_of_gives made' perm gives, same, ?_⟩
    intro m _ host filter
    rw [carryOut_settled host filter next.plan, same, ← carryOut_settled]
  case repeated =>
    intro before extra after given' opt value member perm gives again
    have member' : opt ∈ given'.map Prod.fst := (perm.map Prod.fst).mem_iff.2 member
    exact parse_of_repeated member' gives again

/-- The full profile with a count of its own, written with a plus and a zero before it, and a path
with an equals sign in it. -/
theorem valid_options_planned_full :
    Valid [(.profile, "full".toList), (.iterations, "+07".toList), (.out, "a=b".toList)] ∧
      ∃ plan : Plan, plan.Answers
        [(.profile, "full".toList), (.iterations, "+07".toList), (.out, "a=b".toList)] := by
  have valid :
      Valid [(.profile, "full".toList), (.iterations, "+07".toList), (.out, "a=b".toList)] := by
    constructor
    case once => decide
    case admits =>
      simp only [List.forall_mem_cons]
      refine ⟨⟨.full, rfl⟩, ⟨7, ['0', '7'], .inr rfl, ?_⟩, ?_, by simp⟩
      · exact ⟨List.cons_ne_nil _ _, List.all_eq_true.1 rfl, rfl⟩
      · exact List.cons_ne_nil _ _
  exact ⟨valid, valid_options_planned valid⟩

end MicroBench.CommandLine
