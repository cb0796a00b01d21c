import ResolverPipeline.Proofs.Logging

/-!
What can be told from the log of a compile.  A compile that succeeds has logged its result, each part at
its place and nothing besides; one that fails has logged the fields before the faulty one as if each had
been compiled alone, and of that one no more than parts.
-/

namespace ResolverPipeline

variable {handles : Handles} {app : AppConfig} {operation : Operation} {field : String}
  {α β γ : Type}

namespace Event

def stepBuilt? : Event → Option (String × StepKind)
  | .stepBuilt step kind => some (step, kind)
  | _ => none

def keysIgnored? : Event → Option String
  | .keysIgnored step => some step
  | _ => none

def pipelineAssembled? : Event → Option Nat
  | .pipelineAssembled steps => some steps
  | _ => none

def fieldCompiled? : Event → Option (Operation × String × Bool × Nat)
  | .fieldCompiled operation field pipeline steps => some (operation, field, pipeline, steps)
  | _ => none

def definitionCompiled? : Event → Option Nat
  | .definitionCompiled fields => some fields
  | _ => none

/-- That the events behind this one begin with the one that it announces, if it announces any. -/
def Announces : Event → List Event → Prop
  | .keysIgnored step, after => ∃ kind rest, after = .stepBuilt step kind :: rest
  | .pipelineAssembled steps, after =>
    ∃ operation field rest, after = .fieldCompiled operation field true steps :: rest
  | _, _ => True

theorem Announces.append {e : Event} {after : List Event} (h : e.Announces after)
    (more : List Event) : e.Announces (after ++ more) := by
  cases e with
  | keysIgnored step =>
    obtain ⟨kind, rest, rfl⟩ := h
    exact ⟨kind, rest ++ more, rfl⟩
  | pipelineAssembled steps =>
    obtain ⟨operation, field, rest, rfl⟩ := h
    exact ⟨operation, field, rest ++ more, rfl⟩
  | _ => trivial

end Event

def Orderly : List Event → Prop
  | [] => True
  | e :: after => e.Announces after ∧ Orderly after

namespace Orderly

theorem append {log more : List Event} (h : Orderly log) (hmore : Orderly more) :
    Orderly (log ++ more) := by
  induction log with
  | nil => exact hmore
  | cons e after ih => exact ⟨h.1.append more, ih h.2⟩

theorem flatMap {as : List α} {f : α → List Event} (h : ∀ a ∈ as, Orderly (f a)) :
    Orderly (as.flatMap f) := by
  induction as with
  | nil => trivial
  | cons a rest ih =>
    obtain ⟨ha, hrest⟩ := List.forall_mem_cons.1 h
    rw [List.flatMap_cons]
    exact ha.append (ih hrest)

theorem announces {before after : List Event} {e : Event} (h : Orderly (before ++ e :: after)) :
    e.Announces after := by
  induction before with
  | nil => exact h.1
  | cons _ before ih => exact ih h.2

theorem stepEvents (d : Descriptor) (s : Step) : Orderly (stepEvents d s) := by
  rw [ResolverPipeline.stepEvents]
  cases d.hasKeys with
  | false => exact ⟨trivial, trivial⟩
  | true => exact ⟨⟨s.kind, [], rfl⟩, trivial, trivial⟩

theorem fieldEvents (r : Resolver) (f : CompiledField) : Orderly (fieldEvents r f) := by
  rw [ResolverPipeline.fieldEvents, List.append_assoc]
  refine append (flatMap fun p _ => stepEvents p.1 p.2) ?_
  cases r with
  | single d => exact ⟨trivial, trivial⟩
  | pipeline ds =>
    have hcount : f.functions.length = f.steps.length := List.length_map _
    rw [hcount]
    exact ⟨⟨f.operation, f.field, [], rfl⟩, trivial, trivial⟩

end Orderly

structure BuiltFrom (handles : Handles) (app : AppConfig) (e : Operation × String × Resolver)
    (f : CompiledField) : Prop where
  operation_eq : f.operation = e.1
  field_eq : f.field = e.2.1
  pipeline_eq : f.pipeline?.isSome = e.2.2.isPipeline
  steps : List.Forall₂ (fun d s => ∃ n stored,
      d.step? handles app (stepName e.1 e.2.1 · n) (.pipeline stored) = some (.ok s))
    e.2.2.executables f.steps

theorem CompilesTo.builtFrom {e : Operation × String × Resolver} {f : CompiledField}
    (h : CompilesTo handles app e f) : BuiltFrom handles app e f := by
  obtain ⟨operation, field, r⟩ := e
  obtain ⟨hoperation, hfield⟩ := Prod.mk.inj h.key
  cases r with
  | single d =>
    cases d with
    | db access =>
      obtain ⟨pk, sk, -, rfl⟩ := compilesTo_unit.1 h
      exact ⟨hoperation, hfield, rfl, .nil⟩
    | _ => cases h
  | pipeline ds =>
    obtain ⟨-, steps, fields, hsteps, -, rfl⟩ := compilesTo_pipeline.1 h
    refine ⟨hoperation, hfield, rfl, (stepsFrom_builds hsteps).imp ?_⟩
    rintro d s ⟨n, stored, hd⟩
    exact ⟨n, stored, Descriptor.builds_iff.1 hd⟩

/-- The log of a compile that comes to `api`. -/
structure FaithfulLog (handles : Handles) (d : Definition) (api : Api) (log : List Event) :
    Prop where
  built : List.Forall₂ (BuiltFrom handles d.config) d.resolvers.fields api.fields
  events : log = ((d.resolvers.fields.zip api.fields).flatMap fun (e, f) => fieldEvents e.2.2 f) ++
    [.definitionCompiled api.fields.length]
  stepsBuilt : log.filterMap Event.stepBuilt? = api.steps.map fun s => (s.name, s.kind)
  fieldsCompiled : log.filterMap Event.fieldCompiled? = api.fields.map fun f =>
    (f.operation, f.field, f.pipeline?.isSome, f.functions.length)
  pipelinesAssembled : log.filterMap Event.pipelineAssembled? =
    api.fields.filterMap fun f => f.pipeline?.map Pipeline.size
  assembled_next : ∀ before steps after, log = before ++ .pipelineAssembled steps :: after →
    ∃ operation field rest, after = .fieldCompiled operation field true steps :: rest
  keysIgnored : log.filterMap Event.keysIgnored? =
    (((d.resolvers.fields.zip api.fields).flatMap fun (e, f) => e.2.2.executables.zip f.steps).filter
      fun (d, _) => d.hasKeys).map fun (_, s) => s.name
  keysIgnored_next : ∀ before step after, log = before ++ .keysIgnored step :: after →
    ∃ kind rest, after = .stepBuilt step kind :: rest
  definitionCompiled : log.filterMap Event.definitionCompiled? = [api.fields.length]

section Told

variable {R : α → β → Prop}

theorem flatMap_zip {as : List α} {bs : List β} (h : List.Forall₂ R as bs) {g : α × β → List γ}
    {k : β → List γ} (hg : ∀ {a b}, R a b → g (a, b) = k b) : (as.zip bs).flatMap g = bs.flatMap k := by
  induction h with
  | nil => rfl
  | cons hab _ ih => rw [List.zip_cons_cons, List.flatMap_cons, List.flatMap_cons, hg hab, ih]

theorem filterMap_fieldEvents (g : Event → Option γ) (r : Resolver) (f : CompiledField) :
    (fieldEvents r f).filterMap g =
      ((r.executables.zip f.steps).flatMap fun (d, s) =>
        (if d.hasKeys then (g (.keysIgnored s.name)).toList else []) ++
          (g (.stepBuilt s.name s.kind)).toList) ++
      ((if r.isPipeline then (g (.pipelineAssembled f.steps.length)).toList else []) ++
        (g (.fieldCompiled f.operation f.field r.isPipeline f.functions.length)).toList) := by
  have hsingle : ∀ e, [e].filterMap g = (g e).toList := by
    intro e
    cases h : g e <;> simp [h]
  have hif : ∀ (b : Bool) e, (if b then [e] else []).filterMap g = if b then (g e).toList else [] := by
    intro b e
    cases b with
    | true => exact hsingle e
    | false => rfl
  simp only [fieldEvents, stepEvents, List.filterMap_append, List.filterMap_flatMap, hif, hsingle,
    List.append_assoc]

theorem stepsBuilt_fieldEvents {e : Operation × String × Resolver} {f : CompiledField}
    (h : BuiltFrom handles app e f) : (fieldEvents e.2.2 f).filterMap Event.stepBuilt? =
      f.steps.map fun s => (s.name, s.kind) := by
  rw [List.map_eq_flatMap, ← flatMap_zip h.steps (g := fun (_, s) => [(s.name, s.kind)])]
  · simp [filterMap_fieldEvents, Event.stepBuilt?]
  · simp

theorem fieldsCompiled_fieldEvents {e : Operation × String × Resolver} {f : CompiledField}
    (h : BuiltFrom handles app e f) : (fieldEvents e.2.2 f).filterMap Event.fieldCompiled? =
      [(f.operation, f.field, f.pipeline?.isSome, f.functions.length)] := by
  simp [filterMap_fieldEvents, Event.fieldCompiled?, h.pipeline_eq]

theorem pipelinesAssembled_fieldEvents {e : Operation × String × Resolver} {f : CompiledField}
    (h : BuiltFrom handles app e f) : (fieldEvents e.2.2 f).filterMap Event.pipelineAssembled? =
      (f.pipeline?.map Pipeline.size).toList := by
  rw [filterMap_fieldEvents, ← h.pipeline_eq, CompiledField.steps]
  cases f.pipeline? <;> simp [Event.pipelineAssembled?, Pipeline.size]

theorem keysIgnored_fieldEvents (r : Resolver) (f : CompiledField) :
    (fieldEvents r f).filterMap Event.keysIgnored? =
      ((r.executables.zip f.steps).filter fun (d, _) => d.hasKeys).map fun (_, s) => s.name := by
  simp only [filterMap_fieldEvents, Event.keysIgnored?]
  induction r.executables.zip f.steps with
  | nil => simp
  | cons p rest ih => cases hd : p.1.hasKeys <;> simpa [hd] using ih

theorem definitionCompiled_fieldEvents (r : Resolver) (f : CompiledField) :
    (fieldEvents r f).filterMap Event.definitionCompiled? = [] := by
  simp [filterMap_fieldEvents, Event.definitionCompiled?]

end Told

theorem faithfulLog_of_compile {d : Definition} {api : Api}
    (h : (compile handles d).result = .ok api) :
    FaithfulLog handles d api (compile handles d).log := by
  obtain ⟨fs, hfs, rfl⟩ := compile_eq_ok.1 h
  have hbuilt : List.Forall₂ (BuiltFrom handles d.config) d.resolvers.fields fs :=
    hfs.imp fun _ _ hf => hf.builtFrom
  have horderly : Orderly (compile handles d).log := by
    rw [compile_log hfs]
    exact (Orderly.flatMap fun _ _ => .fieldEvents _ _).append ⟨trivial, trivial⟩
  have htold : ∀ {γ : Type} (g : Event → Option γ), (compile handles d).log.filterMap g =
      ((d.resolvers.fields.zip fs).flatMap fun (e, f) => (fieldEvents e.2.2 f).filterMap g) ++
        [Event.definitionCompiled fs.length].filterMap g := by
    intro γ g
    rw [compile_log hfs, List.filterMap_append, List.filterMap_flatMap]
  constructor
  · exact hbuilt
  · exact compile_log hfs
  · rw [htold, flatMap_zip hbuilt stepsBuilt_fieldEvents, Api.steps, List.map_flatMap]
    exact List.append_nil _
  · rw [htold, List.map_eq_flatMap, flatMap_zip hbuilt fieldsCompiled_fieldEvents]
    exact List.append_nil _
  · rw [htold, flatMap_zip hbuilt pipelinesAssembled_fieldEvents, ← List.filterMap_eq_flatMap_toList]
    exact List.append_nil _
  · intro before steps after hlog
    rw [hlog] at horderly
    exact horderly.announces
  · rw [htold, List.filter_flatMap, List.map_flatMap]
    simp only [keysIgnored_fieldEvents]
    exact List.append_nil _
  · intro before step after hlog
    rw [hlog] at horderly
    exact horderly.announces
  · rw [htold]
    simp only [definitionCompiled_fieldEvents]
    simp [Event.definitionCompiled?, Api.ofFields]

section Failing

variable {d : Definition} {e : Operation × String × Resolver}

theorem fieldCompiled?_of_isPart {event : Event} (h : event.isPart = true) :
    event.fieldCompiled? = none ∧ event.definitionCompiled? = none := by
  cases event with
  | keysIgnored | stepBuilt | pipelineAssembled => exact ⟨rfl, rfl⟩
  | definitionLoaded | fieldCompiled | definitionCompiled => cases h

theorem compileEntry_logsOnly :
    Traced.LogsOnly (·.definitionCompiled? = none) (compileEntry handles app e) := by
  have hfield : Traced.LogsOnly (·.definitionCompiled? = none)
      (compileField handles app e.1 e.2.1 e.2.2) :=
    (compileField_logsOnly e.2.2).mono fun _ h => (fieldCompiled?_of_isPart h).2
  exact .bind hfield fun f => .bind (.tell rfl) fun _ => .ofExcept (.ok f)

theorem compile_only_events (h : ∃ f, CompilesTo handles d.config e f) :
    (compile handles (d.only e)).log.filter (·.definitionCompiled?.isNone) =
      (compileEntry handles d.config e).log := by
  obtain ⟨f, hf⟩ := h
  rw [compile_only_log hf, List.filter_append]
  have hentry : (compileEntry handles d.config e).log.filter (·.definitionCompiled?.isNone) =
      (compileEntry handles d.config e).log := by
    rw [List.filter_eq_self]
    intro event hevent
    rw [compileEntry_logsOnly event hevent]
    rfl
  rw [hentry]
  exact List.append_nil _

end Failing

/-- A log is a faithful trace of its compile, up to the end or up to the first entry that fails. -/
theorem compile_logsFaithfully (handles : Handles) (d : Definition) :
    (∀ api, (compile handles d).result = .ok api →
      FaithfulLog handles d api (compile handles d).log) ∧
    d.resolvers.fields.Pairwise Resolvers.Before ∧
    ∀ err, (compile handles d).result = .error err → ∃ before entry after,
      d.resolvers.fields = before ++ entry :: after ∧
      (∀ b ∈ before, ∃ api, (compile handles (d.only b)).result = .ok api) ∧
      (compile handles (d.only entry)).result = .error err ∧
      (compile handles d).log =
        (before.flatMap fun b =>
          (compile handles (d.only b)).log.filter (·.definitionCompiled?.isNone)) ++
        (compile handles (d.only entry)).log ∧
      (compile handles (d.only entry)).log.filterMap Event.fieldCompiled? = [] ∧
      (compile handles d).log.filterMap Event.definitionCompiled? = [] := by
  refine ⟨fun api => faithfulLog_of_compile, d.resolvers.fields_ordered, fun err h => ?_⟩
  obtain ⟨before, entry, after, hfields, hbefore, herror⟩ :=
    compileEntries_eq_error.1 (compile_eq_error.1 h)
  have hlog : (compile handles d).log =
      (before.flatMap fun b => (compileEntry handles d.config b).log) ++
        (compileEntry handles d.config entry).log := by
    rw [compile_log_of_error h, hfields, compileEntries_log_append hbefore,
      compileEntries_log_of_error herror]
  refine ⟨before, entry, after, hfields, fun b hb => compile_only_accepts.2 (hbefore b hb),
    compile_only_eq_error.2 herror, ?_, ?_, ?_⟩
  · rw [hlog, compile_only_log_of_error herror]
    congr 1
    exact List.flatMap_congr fun b hb => (compile_only_events (hbefore b hb)).symm
  · rw [compile_only_log_of_error herror, compileEntry_log_of_error herror,
      List.filterMap_eq_nil_iff]
    intro event hevent
    exact (fieldCompiled?_of_isPart (compileField_logsOnly entry.2.2 event hevent)).1
  · rw [hlog, List.filterMap_eq_nil_iff]
    intro event hevent
    rw [List.mem_append, List.mem_flatMap] at hevent
    obtain ⟨b, -, hevent⟩ | hevent := hevent
    · exact compileEntry_logsOnly event hevent
    · exact compileEntry_logsOnly event hevent

def loggedNotes : Definition where
  schema := ""
  resolvers := {
    query := .ofList [("notes", .single (.db ⟨.list, some "$owner", some "note"⟩))]
    mutation := .ofList [("create", .pipeline [.guard "$owner" "profile",
      .db ⟨.create, none, some "note"⟩, .add .empty, .emit "created" .empty, .db ⟨.get, none, none⟩])] }
  config := { name := "notes" }

def loggedFault : Definition :=
  { loggedNotes with resolvers := { loggedNotes.resolvers with
    mutation := (loggedNotes.resolvers.mutation.insert "share"
      (.pipeline [.db ⟨.get, some "$id", none⟩, .guard "#" "profile"])).insert "touch"
      (.pipeline [.db ⟨.get, none, none⟩]) } }

theorem loggedNotes_faithfully :
    (∃ api, (compile {} loggedNotes).result = .ok api ∧
      FaithfulLog {} loggedNotes api (compile {} loggedNotes).log ∧
      (compile {} loggedNotes).log = [
        .fieldCompiled .query "notes" false 0,
        .stepBuilt "mcreateguard0" .guard,
        .keysIgnored "mcreatedbcreate1", .stepBuilt "mcreatedbcreate1" .create,
        .stepBuilt "mcreateemit2" .emitEvent, .stepBuilt "mcreatedbget3" .get,
        .pipelineAssembled 4, .fieldCompiled .mutation "create" true 4,
        .definitionCompiled 2]) ∧
    (compile {} loggedFault).result =
      .error ⟨.mutation, "share", .reference "step 'mshareguard1' pk" (.emptyPath "#")⟩ ∧
    (∃ before entry after, loggedFault.resolvers.fields = before ++ entry :: after ∧
      (compile {} loggedFault).log =
        (before.flatMap fun b =>
          (compile {} (loggedFault.only b)).log.filter (·.definitionCompiled?.isNone)) ++
        (compile {} (loggedFault.only entry)).log ∧
      (compile {} (loggedFault.only entry)).log.filterMap Event.fieldCompiled? = []) ∧
    (compile {} loggedFault).log = [
      .fieldCompiled .query "notes" false 0,
      .stepBuilt "mcreateguard0" .guard,
      .keysIgnored "mcreatedbcreate1", .stepBuilt "mcreatedbcreate1" .create,
      .stepBuilt "mcreateemit2" .emitEvent, .stepBuilt "mcreatedbget3" .get,
      .pipelineAssembled 4, .fieldCompiled .mutation "create" true 4,
      .keysIgnored "msharedbget0", .stepBuilt "msharedbget0" .get] := by
  have hok : (compile {} loggedNotes).result.isOk = true := by decide +kernel
  have herror : (compile {} loggedFault).result =
      .error ⟨.mutation, "share", .reference "step 'mshareguard1' pk" (.emptyPath "#")⟩ := by
    decide +kernel
  obtain ⟨api, hapi⟩ := exists_ok_of_isOk hok
  obtain ⟨before, entry, after, hfields, -, -, hlog, hparts, -⟩ :=
    (compile_logsFaithfully {} loggedFault).2.2 _ herror
  exact ⟨⟨api, hapi, (compile_logsFaithfully {} loggedNotes).1 api hapi, by decide +kernel⟩, herror,
    ⟨before, entry, after, hfields, hlog, hparts⟩, by decide +kernel⟩

end ResolverPipeline
