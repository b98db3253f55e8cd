import MicroBench.Plugin

/-! The plugin on a machine that has more to it than the plugin knows of. It does there
what it does without, and what is added learns nothing of it but the tasks performed.
The machine may as well keep a journal of them. -/
namespace MicroBench

variable {τ σ α β ε : Type}

/-- A state within a larger one, which changes with it and while tasks are performed. -/
structure Embedding (τ σ : Type) where
  view : σ → τ
  update : σ → τ → List Task → σ
  update_view : ∀ s, update s (view s) [] = s
  view_update : ∀ s t tasks, view (update s t tasks) = t
  update_update : ∀ s t t' tasks tasks',
    update (update s t tasks) t' tasks' = update s t' (tasks ++ tasks')

namespace Embedding

def journal : Embedding σ (σ × List Task) where
  view := Prod.fst
  update noted s tasks := (s, noted.2 ++ tasks)
  update_view noted := by rw [List.append_nil]
  view_update _ _ _ := rfl
  update_update noted t t' tasks tasks' := by rw [List.append_assoc]

variable (embedding : Embedding τ σ)

def act (tasks : List Task) (step : StateM τ α) : StateM σ α := fun s =>
  ((step.run (embedding.view s)).1, embedding.update s (step.run (embedding.view s)).2 tasks)

theorem act_pure (a : α) : embedding.act [] (pure a) = pure a := by
  funext s
  exact congrArg (Prod.mk a) (embedding.update_view s)

theorem act_bind (tasks tasks' : List Task) (step : StateM τ α) (next : α → StateM τ β) :
    (embedding.act tasks step >>= fun a => embedding.act tasks' (next a)) =
      embedding.act (tasks ++ tasks') (step >>= next) := by
  funext s
  have before : embedding.view (embedding.act tasks step s).2 = (step.run (embedding.view s)).2 :=
    embedding.view_update _ _ _
  change
    embedding.act tasks' (next (step.run (embedding.view s)).1) (embedding.act tasks step s).2 = _
  rw [act, before]
  exact congrArg (Prod.mk _) (embedding.update_update _ _ _ _ _)

theorem act_bind_nil (tasks : List Task) (step : StateM τ α) (next : α → StateM τ β) :
    (embedding.act tasks step >>= fun a => embedding.act [] (next a)) =
      embedding.act tasks (step >>= next) := by
  rw [act_bind, List.append_nil]

end Embedding

/-! ### Runs -/

def Bench.within (bench : Bench (StateM τ) ε) (embedding : Embedding τ σ) (task : Task) :
    Bench (StateM σ) ε where
  now := embedding.act [] bench.now
  call := embedding.act [task] bench.call
  log event := embedding.act [] (bench.log event)

namespace Runner

variable (embedding : Embedding τ σ) (task : Task) (bench : Bench (StateM τ) Empty)

open MicroBench.Embedding

theorem forM_log_within (events : List Event) :
    events.forM (bench.within embedding task).log = embedding.act [] (events.forM bench.log) := by
  induction events with
  | nil => exact (embedding.act_pure _).symm
  | cons event events ih =>
    have first : (event :: events).forM bench.log =
        bench.log event >>= fun _ => events.forM bench.log := rfl
    rw [first, ← act_bind_nil, ← ih]
    rfl

theorem elapsedNanos_within (start : Instant) :
    Clock.elapsedNanos (bench.within embedding task).now (bench.within embedding task).log start =
      embedding.act [] (Clock.elapsedNanos bench.now bench.log start) := by
  rw [Clock.elapsedNanos, Clock.elapsedNanos, ← act_bind_nil]
  congr 1
  funext stop
  rw [← act_bind_nil, forM_log_within]
  congr 1
  funext _
  exact (embedding.act_pure _).symm

theorem warmUp_within (count : Nat) :
    warmUp (bench.within embedding task) count =
      embedding.act (List.replicate count task) (warmUp bench count) := by
  induction count with
  | zero => exact (embedding.act_pure _).symm
  | succ count ih =>
    have first : List.replicate (count + 1) task = [task] ++ List.replicate count task := rfl
    rw [warmUp, warmUp, first, ← act_bind]
    congr 1
    funext outcome
    cases outcome with
    | error e => cases e
    | ok done => exact ih

theorem measure_within (runner : Runner) (measured : Measured) (count : Nat) :
    runner.measure (bench.within embedding task) measured count =
      embedding.act (List.replicate count task) (runner.measure bench measured count) := by
  induction count generalizing measured with
  | zero => exact (embedding.act_pure _).symm
  | succ count ih =>
    have first : List.replicate (count + 1) task =
        [] ++ ([task] ++ ([] ++ List.replicate count task)) := rfl
    rw [measure, measure, first, ← act_bind]
    congr 1
    funext start
    rw [← act_bind]
    congr 1
    funext outcome
    rw [elapsedNanos_within, ← act_bind]
    congr 1
    funext nanos
    cases outcome with
    | error e => cases e
    | ok done => exact ih _

/-- A run performs the task as often as it calls the thunk. -/
theorem tryRun_within (runner : Runner) (iterations warmup : UInt64) :
    runner.tryRun iterations warmup (bench.within embedding task) =
      embedding.act (List.replicate (warmup.toNat + iterations.toNat) task)
        (runner.tryRun iterations warmup bench) := by
  rw [tryRun, tryRun, ← List.replicate_append_replicate, ← act_bind, warmUp_within]
  congr 1
  funext warmed
  cases warmed with
  | error e => cases e
  | ok done =>
    simp only
    rw [← act_bind_nil, measure_within]
    congr 1
    funext outcome
    cases outcome with
    | error e => cases e
    | ok measured =>
      simp only
      rw [← act_bind_nil]
      congr 1
      funext _
      exact (embedding.act_pure _).symm

theorem run_within (runner : Runner) (iterations warmup : UInt64) (now : StateM τ Instant)
    (log : Event → StateM τ Unit) (call : StateM τ Unit) :
    runner.run iterations warmup (embedding.act [] now) (fun event => embedding.act [] (log event))
        (embedding.act [task] call) =
      embedding.act (List.replicate (warmup.toNat + iterations.toNat) task)
        (runner.run iterations warmup now log call) := by
  let bench : Bench (StateM τ) Empty := { now, log, call := do call; pure (.ok ()) }
  have called : (embedding.act [task] call >>= fun _ => pure (.ok ())) =
      (bench.within embedding task).call := by
    have whole := embedding.act_bind [task] [] call fun _ => pure (Except.ok () : Except Empty Unit)
    simp only [act_pure] at whole
    exact whole
  rw [run, run, called]
  refine Eq.trans ?_ (embedding.act_bind_nil _ (runner.tryRun iterations warmup bench) _)
  rw [← tryRun_within]
  congr 1
  funext outcome
  cases outcome with
  | error e => cases e
  | ok record => exact (embedding.act_pure _).symm

end Runner

/-- The tasks of a run of a workload: one for each call, measured or not. -/
def Workload.tasks (workload : Workload) (config : Config) : List Task :=
  List.replicate (config.warmupCount.toNat + config.iterationCount.toNat) (workload.task config)

/-- A run of a workload performs its task once for each call, and nothing else. -/
theorem Workload.run_within (embedding : Embedding τ σ) (workload : Workload) (config : Config)
    (now : StateM τ Instant) (log : Event → StateM τ Unit) (perform : Task → StateM τ Unit) :
    workload.run (embedding.act [] now) (fun event => embedding.act [] (log event))
        (fun task => embedding.act [task] (perform task)) config =
      embedding.act (workload.tasks config) (workload.run now log perform config) := by
  rw [run, run, ← List.nil_append (workload.tasks config), ← Embedding.act_bind]
  congr 1
  funext _
  exact Runner.run_within embedding (workload.task config) config.runner config.iterationCount
    config.warmupCount now log (perform (workload.task config))

/-! ### The plugin -/

def Sink.within (sink : Sink (StateM τ)) (embedding : Embedding τ σ) : Sink (StateM σ) where
  put bytes := embedding.act [] (sink.put bytes)
  flush := embedding.act [] sink.flush

def Host.within (host : Host (StateM τ)) (embedding : Embedding τ σ) : Host (StateM σ) where
  now := embedding.act [] host.now
  perform task := embedding.act [task] (host.perform task)
  stdout := host.stdout.within embedding
  create path := embedding.act [] (host.create path) >>= fun created =>
    pure (created.map fun sink => sink.within embedding)
  report line := embedding.act [] (host.report line)

theorem Sink.putAll_within (sink : Sink (StateM τ)) (embedding : Embedding τ σ)
    (pieces : List (List UInt8)) :
    (sink.within embedding).putAll pieces = embedding.act [] (sink.putAll pieces) := by
  induction pieces with
  | nil => exact (embedding.act_pure _).symm
  | cons piece pieces ih =>
    rw [putAll, putAll, ← Embedding.act_bind_nil]
    congr 1
    funext outcome
    cases outcome with
    | error e => exact (embedding.act_pure _).symm
    | ok done => exact ih

theorem Record.writeTo_within (r : Record) (sink : Sink (StateM τ)) (embedding : Embedding τ σ) :
    r.writeTo (sink.within embedding) = embedding.act [] (r.writeTo sink) := by
  rw [writeTo, writeTo]
  cases r.defect? with
  | some defect => exact (embedding.act_pure _).symm
  | none =>
    simp only
    rw [← Embedding.act_bind_nil, Sink.putAll_within]
    congr 1
    funext outcome
    cases outcome with
    | error e => exact (embedding.act_pure _).symm
    | ok done =>
      simp only
      rw [← Embedding.act_bind_nil]
      congr 1
      funext flushed
      cases flushed <;> exact (embedding.act_pure _).symm

namespace Plugin

open CommandLine

variable (host : Host (StateM τ)) (embedding : Embedding τ σ) (filter : Log.Filter)

def tasksOf : Except UsageError Request → List Task
  | .ok (.measure plan) => plan.workload.tasks plan.config
  | _ => []

theorem log_within (e : Event) :
    log (host.within embedding) filter e = embedding.act [] (log host filter e) := by
  rw [log, log]
  split
  · rfl
  · exact (embedding.act_pure _).symm

theorem handOut_within (r : Record) (out : Option (List Char)) :
    handOut (host.within embedding) r out = embedding.act [] (handOut host r out) := by
  cases out with
  | none => exact r.writeTo_within host.stdout embedding
  | some path =>
    rw [handOut, handOut, ← Embedding.act_bind_nil]
    simp only [Host.within, bind_assoc, pure_bind]
    congr 1
    funext created
    cases created with
    | error e => exact (embedding.act_pure _).symm
    | ok sink => exact r.writeTo_within sink embedding

theorem carryOut_within (plan : Plan) :
    carryOut (host.within embedding) filter plan =
      embedding.act (plan.workload.tasks plan.config) (carryOut host filter plan) := by
  have run := Workload.run_within embedding plan.workload plan.config host.now (log host filter)
    host.perform
  rw [← funext (log_within host embedding filter)] at run
  rw [carryOut, carryOut, ← Embedding.act_bind_nil, ← run]
  congr 1
  funext r
  rw [log_within, ← Embedding.act_bind_nil]
  congr 1
  funext _
  exact handOut_within host embedding r plan.out

/-- What the plugin does for its arguments performs the tasks that they ask for. -/
theorem answer_within (arguments : List String) :
    answer (host.within embedding) filter arguments =
      embedding.act (tasksOf (parse arguments)) (answer host filter arguments) := by
  rw [answer, answer]
  cases parse arguments with
  | error e =>
    simp only [tasksOf]
    rw [← Embedding.act_bind_nil]
    congr 1
    funext _
    exact (embedding.act_pure _).symm
  | ok request =>
    cases request with
    | help long =>
      simp only [tasksOf]
      rw [← Embedding.act_bind_nil, ← Sink.putAll_within]
      congr 1
    | measure plan =>
      simp only [tasksOf]
      rw [← Embedding.act_bind_nil, carryOut_within]
      congr 1
      funext outcome
      cases outcome with
      | error failure =>
        simp only
        rw [← Embedding.act_bind_nil]
        congr 1
        funext _
        exact (embedding.act_pure _).symm
      | ok done => exact (embedding.act_pure _).symm

def tasks (arguments : List String) (logSetting : Option String) : List Task :=
  match Log.Filter.ofSetting logSetting with
  | none => []
  | some _ => tasksOf (parse arguments)

theorem tasks_eq {filter : Log.Filter} {logSetting : Option String}
    (read : Log.Filter.ofSetting logSetting = some filter) (arguments : List String) :
    tasks arguments logSetting = tasksOf (parse arguments) := by
  rw [tasks, read]

/-- A part of a larger machine does what it would do alone. -/
theorem run_within (arguments : List String) (logSetting : Option String) :
    run (host.within embedding) arguments logSetting =
      embedding.act (tasks arguments logSetting) (run host arguments logSetting) := by
  rw [run, run, tasks]
  cases Log.Filter.ofSetting logSetting with
  | none => exact (embedding.act_pure _).symm
  | some filter => exact answer_within host embedding filter arguments

end Plugin

end MicroBench
