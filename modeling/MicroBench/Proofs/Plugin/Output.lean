import MicroBench.Machine.Host
import MicroBench.Proofs.CommandLine.Arguments
import MicroBench.Proofs.Log.Filter
import MicroBench.Proofs.Plugin.Embedding
import MicroBench.Proofs.Sink.Delivery

/-! What a run of the plugin leaves behind on a machine: one record, or nothing. A
measurement only reads the clock and reports, so that standard output and the files are
as they were at the start when its record is handed out. Every record that is measured is
well-formed; therefore a file that was emptied for it also receives it. How often the work
was done is kept in a journal beside the machine. -/
namespace MicroBench.Machine

theorem append_append_list (a : Array UInt8) (bytes bytes' : List UInt8) :
    a ++ bytes ++ bytes' = a ++ (bytes ++ bytes') := by
  apply Array.ext'
  simp

/-! ### Files -/

namespace Files

theorem contents?_cons (name path : Path) (contents : Array UInt8) (files : Files) :
    contents? ((name, contents) :: files) path =
      if name = path then some contents else files.contents? path := by
  by_cases here : name = path <;> simp [contents?, here]

theorem contents?_filter {path other : Path} (apart : other ≠ path) (files : Files) :
    contents? (files.filter (·.1 ≠ path)) other = files.contents? other := by
  induction files with
  | nil => rfl
  | cons file files ih =>
    obtain ⟨name, contents⟩ := file
    by_cases here : name = path
    · rw [List.filter_cons_of_neg (by simpa using here), contents?_cons, ih,
        if_neg (by rw [here]; exact apart.symm)]
    · rw [List.filter_cons_of_pos (by simpa using here), contents?_cons, contents?_cons, ih]

theorem contents?_emptied (files : Files) (path other : Path) :
    (files.emptied path).contents? other =
      if other = path then some #[] else files.contents? other := by
  rw [emptied, contents?_cons]
  by_cases same : other = path
  · rw [if_pos same.symm, if_pos same]
  · rw [if_neg (Ne.symm same), if_neg same, contents?_filter same]

/-- Adding to a file leaves the other ones alone. -/
theorem contents?_extended (files : Files) (path other : Path) (bytes : List UInt8) :
    (files.extended path bytes).contents? other =
      (files.contents? other).map fun (contents : Array UInt8) =>
        if other = path then contents ++ bytes else contents := by
  induction files with
  | nil => rfl
  | cons file files ih =>
    obtain ⟨name, contents⟩ := file
    have first : extended ((name, contents) :: files) path bytes =
        (name, if name = path then contents ++ bytes else contents) :: extended files path bytes :=
      rfl
    rw [first, contents?_cons, contents?_cons, ih]
    by_cases here : name = other
    · subst here
      simp
    · rw [if_neg here, if_neg here]

theorem extended_nil (files : Files) (path : Path) : files.extended path [] = files := by
  simp [extended]

theorem extended_extended (files : Files) (path : Path) (bytes bytes' : List UInt8) :
    (files.extended path bytes).extended path bytes' = files.extended path (bytes ++ bytes') := by
  simp only [extended, List.map_map]
  congr 1
  funext ⟨name, contents⟩
  by_cases here : name = path <;> simp [here, append_append_list]

end Files

/-! ### Sinks -/

namespace State

theorem put_nil (s : State) (place : Place) : s.put [] place = s := by
  cases place <;> simp [put, Files.extended_nil]

theorem put_put (s : State) (place : Place) (bytes bytes' : List UInt8) :
    (s.put bytes place).put bytes' place = s.put (bytes ++ bytes') place := by
  cases place <;> simp [put, Files.extended_extended, append_append_list]

end State

theorem putAll_sinkAt (place : Place) (pieces : List (List UInt8)) (s : State) :
    ((sinkAt place).putAll pieces).run s = (.ok (), s.put pieces.flatten place) := by
  induction pieces generalizing s with
  | nil =>
    rw [List.flatten_nil, State.put_nil]
    rfl
  | cons piece pieces ih =>
    rw [List.flatten_cons, ← State.put_put, ← ih]
    rfl

/-- A device without room takes everything and fails in the end. -/
def flushed : Place → Except Failure Unit
  | .full => .error (.io .storageFull)
  | _ => .ok ()

/-- A record leaves one line at its place; a device without room tells so when it is flushed. -/
theorem writeTo_sinkAt {r : Record} (wellFormed : r.WellFormed) (place : Place) (s : State) :
    (r.writeTo (sinkAt place)).run s =
      (flushed place, s.put (textBytes (r.encode ++ ['\n'])) place) := by
  have text : ((r.fragments ++ [['\n']]).map textBytes).flatten =
      textBytes (r.encode ++ ['\n']) := by
    rw [flatten_textBytes, List.flatten_append]
    rfl
  rw [Record.writeTo, show r.defect? = none from wellFormed, ← text]
  simp only
  rw [StateT.run_bind, putAll_sinkAt]
  cases place <;> rfl

/-! ### What is left behind -/

structure Untouched (files : Files) (after : State) : Prop where
  stdout : after.stdout = #[]
  files : after.files = files

/-- Where the line of a record is to be found after a run, and the exit code of the run. -/
inductive Arrived (line : Array UInt8) (files : Files) (after : State) :
    Except IoError Place → Nat → Prop where
  | stdout : after.stdout = line → after.files = files → Arrived line files after (.ok .stdout) 0
  /-- The file holds the line and nothing of what it held before. -/
  | file {path : Path} : after.stdout = #[] → after.files.contents? path = some line →
      (∀ other ≠ path, after.files.contents? other = files.contents? other) →
      Arrived line files after (.ok (.file path)) 0
  | stderr {before : Array UInt8} : after.stderr = before ++ line → Untouched files after →
      Arrived line files after (.ok .stderr) 0
  | void : Untouched files after → Arrived line files after (.ok .void) 0
  /-- There is no room for the line. -/
  | full : Untouched files after → Arrived line files after (.ok .full) 1
  /-- The file cannot be created. -/
  | refused {e : IoError} : Untouched files after → Arrived line files after (.error e) 1

/-- Where the record is to go: standard output, unless a file is named. -/
def Site.target (site : Site) (files : Files) : Option (List Char) → Except IoError Place
  | none => .ok .stdout
  | some path => site.place files (.ofList path)

def ending : Except Failure Unit → Nat
  | .ok _ => 0
  | .error _ => 1

def line (r : Record) : Array UInt8 := (textBytes (r.encode ++ ['\n'])).toArray

theorem put_arrives (r : Record) {s : State} (empty : s.stdout = #[]) (place : Place) :
    Arrived (line r) s.files ((opened s place).put (textBytes (r.encode ++ ['\n'])) place)
      (.ok place) (ending (flushed place)) := by
  cases place with
  | stdout =>
    refine .stdout ?_ rfl
    simp [State.put, opened, empty, line]
  | stderr =>
    have after : s.stderr ++ textBytes (r.encode ++ ['\n']) = s.stderr ++ line r := by
      apply Array.ext'
      simp [line]
    exact .stderr after ⟨empty, rfl⟩
  | void => exact .void ⟨empty, rfl⟩
  | full => exact .full ⟨empty, rfl⟩
  | file path =>
    refine .file empty ?_ ?_
    · simp [State.put, opened, Files.contents?_extended, Files.contents?_emptied, line]
    · intro other apart
      simp [State.put, opened, Files.contents?_extended, Files.contents?_emptied, apart]

theorem handOut_arrives (site : Site) (clock : Time → Instant) {r : Record}
    (wellFormed : r.WellFormed) (out : Option (List Char)) {s : State} (empty : s.stdout = #[]) :
    ∃ result after, (Plugin.handOut (host site clock) r out).run s = (result, after) ∧
      Arrived (line r) s.files after (site.target s.files out) (ending result) := by
  cases out with
  | none => exact ⟨_, _, writeTo_sinkAt wellFormed .stdout s, put_arrives r empty .stdout⟩
  | some path =>
    cases target : site.place s.files (.ofList path) with
    | error e =>
      have created : ((host site clock).create (.ofList path)).run s = (.error e, s) := by
        simp only [host, StateT.run, target]
      refine ⟨.error (.io e), s, ?_, ?_⟩
      · rw [Plugin.handOut, StateT.run_bind, created]
        rfl
      · rw [Site.target, target]
        exact .refused ⟨empty, rfl⟩
    | ok place =>
      have created : ((host site clock).create (.ofList path)).run s =
          (.ok (sinkAt place), opened s place) := by
        simp only [host, StateT.run, target]
      refine ⟨flushed place, (opened s place).put (textBytes (r.encode ++ ['\n'])) place, ?_, ?_⟩
      · rw [Plugin.handOut, StateT.run_bind, created]
        exact writeTo_sinkAt wellFormed place (opened s place)
      · rw [Site.target, target]
        exact put_arrives r empty place

/-! ### The measurement -/

/-- What was not handed out has not changed. -/
structure Beside (before after : State) : Prop where
  stdout : after.stdout = before.stdout
  files : after.files = before.files

theorem Beside.trans {a b c : State} (first : Beside a b) (second : Beside b c) : Beside a c :=
  ⟨second.stdout.trans first.stdout, second.files.trans first.files⟩

theorem Beside.untouched {files : Files} {after : State} (beside : Beside (.start files) after) :
    Untouched files after := ⟨beside.stdout, beside.files⟩

theorem Untouched.beside {files : Files} {s after : State} (untouched : Untouched files s)
    (beside : Beside s after) : Untouched files after :=
  ⟨beside.stdout.trans untouched.stdout, beside.files.trans untouched.files⟩

/-- The part of the machine that a measurement needs: its clock, and where reports go. -/
def bench : Embedding (Time × Array UInt8) State where
  view s := (s.time, s.stderr)
  update s part _ := { s with time := part.1, stderr := part.2 }
  update_view _ := rfl
  view_update _ _ _ := rfl
  update_update _ _ _ _ _ := rfl

theorem beside_act {α : Type} (tasks : List Task) (step : StateM (Time × Array UInt8) α)
    (s : State) : Beside s ((bench.act tasks step).run s).2 := ⟨rfl, rfl⟩

variable (site : Site) (clock : Time → Instant) (filter : Log.Filter)

theorem beside_report (text : String) (s : State) :
    Beside s (((host site clock).report text).run s).2 := ⟨rfl, rfl⟩

def reported (line : String) : StateM (Time × Array UInt8) Unit := fun part =>
  ((), part.1, part.2 ++ textBytes (line.toList ++ ['\n']))

/-- Reporting needs nothing but the bench. -/
theorem log_eq (e : Event) :
    Plugin.log (host site clock) filter e =
      bench.act [] (if filter.shows e then reported e.line else pure ()) := by
  rw [Plugin.log]
  split
  · rfl
  · exact (bench.act_pure _).symm

theorem beside_log (e : Event) (s : State) :
    Beside s ((Plugin.log (host site clock) filter e).run s).2 := by
  rw [log_eq]
  exact beside_act _ _ s

/-- A run of a workload touches nothing but the clock and the reports. -/
theorem beside_workload (workload : Workload) (config : Config) (s : State) :
    Beside s ((workload.run (host site clock).now (Plugin.log (host site clock) filter)
      (host site clock).perform config).run s).2 := by
  let now : StateM (Time × Array UInt8) Instant := fun part =>
    (clock part.1, part.1.read, part.2)
  let perform (task : Task) : StateM (Time × Array UInt8) Unit := fun part =>
    ((), part.1.perform task, part.2)
  have run := Workload.run_within bench workload config now
    (fun e => if filter.shows e then reported e.line else pure ()) perform
  rw [← funext (log_eq site clock filter)] at run
  have same : workload.run (host site clock).now (Plugin.log (host site clock) filter)
      (host site clock).perform config = _ := run
  rw [same]
  exact beside_act _ _ s

/-! ### The plugin -/

structure Recorded (config : Config) (r : Record) : Prop where
  wellFormed : r.WellFormed
  iterations : r.iterations = config.iterationCount
  samples : r.samples = [] ↔ config.captureSamples = false ∨ config.iterationCount = 0

/-- Every record that is measured is well-formed, with the iterations and samples asked for. -/
theorem recorded_workload {σ : Type} (workload : Workload) (config : Config)
    (now : StateM σ Instant) (log : Event → StateM σ Unit) (perform : Task → StateM σ Unit)
    (s : σ) : Recorded config ((workload.run now log perform config).run s).1 := by
  have same : (workload.run now log perform config).run s =
      (config.runner.run config.iterationCount config.warmupCount now log
        (perform (workload.task config))).run ((log (workload.running config)).run s).2 := rfl
  obtain ⟨t, samples, made, wellFormed⟩ := Record.wellFormed_of_run config.runner
    config.iterationCount config.warmupCount now log (perform (workload.task config))
    ((log (workload.running config)).run s).2
  rw [same]
  refine ⟨wellFormed, ?_, Runner.samples_of_run _ _ _ _ _ _ _⟩
  rw [made]
  rfl

theorem Arrived.beside {shown : Array UInt8} {files : Files} {s after : State}
    {target : Except IoError Place} (arrived : Arrived shown files s target 1)
    (beside : Beside s after) : Arrived shown files after target 1 := by
  cases arrived with
  | refused untouched => exact .refused (untouched.beside beside)
  | full untouched => exact .full (untouched.beside beside)

/-- A planned measurement leads to one record, which arrives. -/
theorem carryOut_arrives (plan : CommandLine.Plan) (files : Files) :
    ∃ r result after, (Plugin.carryOut (host site clock) filter plan).run (.start files) =
        (result, after) ∧ Recorded plan.config r ∧
      Arrived (line r) files after (site.target files plan.out) (ending result) := by
  let measured := (plan.workload.run (host site clock).now (Plugin.log (host site clock) filter)
    (host site clock).perform plan.config).run (.start files)
  let ready := (Plugin.log (host site clock) filter
    (Plugin.resultReady plan.workload measured.1)).run measured.2
  have recorded : Recorded plan.config measured.1 := recorded_workload ..
  have aside : Beside (.start files) ready.2 :=
    (beside_workload site clock filter plan.workload plan.config _).trans
      (beside_log site clock filter _ _)
  obtain ⟨result, after, handed, arrived⟩ :=
    handOut_arrives site clock recorded.wellFormed plan.out aside.stdout
  rw [aside.files] at arrived
  exact ⟨measured.1, result, after, handed, recorded, arrived⟩

open CommandLine

variable (files : Files) {arguments : List String}

theorem answer_measure {plan : Plan} (parsed : parse arguments = .ok (.measure plan)) :
    ∃ r outcome after, (Plugin.answer (host site clock) filter arguments).run (.start files) =
        (outcome, after) ∧ Recorded plan.config r ∧
      Arrived (line r) files after (site.target files plan.out) outcome.exitCode := by
  obtain ⟨r, result, after, carried, recorded, arrived⟩ :=
    carryOut_arrives site clock filter plan files
  cases result with
  | error failure =>
    refine ⟨r, .failed, (((host site clock).report s!"Error: {failure.report}").run after).2, ?_,
      recorded, arrived.beside (beside_report site clock _ _)⟩
    simp only [Plugin.answer, parsed]
    rw [StateT.run_bind, carried]
    rfl
  | ok done =>
    refine ⟨r, .done, after, ?_, recorded, arrived⟩
    simp only [Plugin.answer, parsed]
    rw [StateT.run_bind, carried]
    rfl

theorem answer_help {long : Bool} (parsed : parse arguments = .ok (.help long)) :
    ∃ after, (Plugin.answer (host site clock) filter arguments).run (.start files) =
        (.done, after) ∧
      after.stdout = (helpText long).toUTF8.data ∧ after.files = files := by
  have written := putAll_sinkAt .stdout [textBytes (helpText long).toList] (.start files)
  refine ⟨(State.start files).put [textBytes (helpText long).toList].flatten .stdout, ?_, ?_, rfl⟩
  · simp only [Plugin.answer, parsed]
    rw [StateT.run_bind]
    rw [show (host site clock).stdout = sinkAt .stdout from rfl, written]
    rfl
  · simp [State.put, State.start, textBytes]

theorem answer_error {e : UsageError} (parsed : parse arguments = .error e) :
    ∃ after, (Plugin.answer (host site clock) filter arguments).run (.start files) =
        (.misused, after) ∧ Untouched files after := by
  simp only [Plugin.answer, parsed]
  exact ⟨_, rfl, ⟨rfl, rfl⟩⟩

/-! ### Whole runs -/

theorem run_eq_answer {filter} {logSetting : Option String}
    (read : Log.Filter.ofSetting logSetting = some filter) :
    run site clock files arguments logSetting =
      (Plugin.answer (host site clock) filter arguments).run (.start files) := by
  rw [run, Plugin.run, read]
  rfl

/-- Runs the plugin on a machine that keeps a journal of the tasks performed. -/
def runJournaled (site : Site) (clock : Time → Instant) (files : Files) (arguments : List String)
    (logSetting : Option String) : Plugin.Outcome × State × List Task :=
  Id.run ((Plugin.run ((host site clock).within .journal) arguments logSetting).run
    (.start files, []))

theorem runJournaled_eq (site : Site) (clock : Time → Instant) (files : Files)
    (arguments : List String) (logSetting : Option String) :
    runJournaled site clock files arguments logSetting =
      ((run site clock files arguments logSetting).1, (run site clock files arguments logSetting).2,
        Plugin.tasks arguments logSetting) := by
  rw [runJournaled, Plugin.run_within]
  rfl

/-- What a run with these choices comes to: one record, which is handed out as one line, of calls
that perform one task. -/
structure HandsOut (site : Site) (files : Files) (choices : Choices) (exitCode : Nat)
    (after : State) (tasks : List Task) (r : Record) : Prop where
  wellFormed : r.WellFormed
  iterations : r.iterations =
    choices.iterations.getD (choices.profile.getD .quick).iterations
  samples : r.samples = [] ↔ choices.noSamples = true ∨ r.iterations = 0
  tasks : tasks = List.replicate
    ((choices.warmup.getD (choices.profile.getD .quick).warmup).toNat + r.iterations.toNat)
    ((choices.workload.getD .standard).task choices.plan.config)
  arrived : ∃ json, r.toJson = .ok json ∧
    Arrived (json ++ "\n").toUTF8.data files after (site.target files choices.out) exitCode

theorem handsOut_of_arrived {site} {files} {r : Record} {choices : Choices} {after : State}
    {exitCode : Nat}
    (recorded : Recorded choices.plan.config r)
    (arrived : Arrived (line r) files after (site.target files choices.out) exitCode) :
    HandsOut site files choices exitCode after
      (choices.plan.workload.tasks choices.plan.config) r := by
  obtain ⟨wellFormed, iterations, samples⟩ := recorded
  refine ⟨wellFormed, iterations, ?_, ?_, ?_⟩
  · rw [samples, ← iterations]
    simp [Choices.plan]
  · rw [iterations]
    rfl
  · refine ⟨_, Record.toJson_of_wellFormed wellFormed, ?_⟩
    have same : (String.ofList r.encode ++ "\n").toUTF8.data = line r := by
      simp [line, textBytes]
    rw [same]
    exact arrived

end MicroBench.Machine
