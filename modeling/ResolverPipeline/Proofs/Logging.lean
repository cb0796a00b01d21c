import ResolverPipeline.Proofs.Edits
import ResolverPipeline.Proofs.Modularity

namespace ResolverPipeline

variable {handles : Handles} {app : AppConfig} {operation : Operation} {field : String}
  {ε ε' α β : Type}

namespace Traced

@[simp] theorem log_tell (e : Event) : (tell e : Traced ε Unit).log = [e] := rfl

@[simp] theorem log_mapError (f : ε → ε') (x : Traced ε α) : (x.mapError f).log = x.log := rfl

theorem log_bind_of_ok {x : Traced ε α} {a : α} (h : x.result = .ok a) (f : α → Traced ε β) :
    (x >>= f).log = x.log ++ (f a).log := by
  obtain ⟨log, r⟩ := x
  subst h
  rfl

theorem log_bind_of_error {x : Traced ε α} {e : ε} (h : x.result = .error e)
    (f : α → Traced ε β) : (x >>= f).log = x.log := by
  obtain ⟨log, r⟩ := x
  subst h
  rfl

theorem log_bind_pure (x : Traced ε α) (g : α → β) : (x >>= fun a => pure (g a)).log = x.log := by
  obtain ⟨log, r⟩ := x
  cases r with
  | ok a => exact List.append_nil log
  | error e => rfl

@[simp] theorem log_ofExcept_bind (a : α) (f : α → Traced ε β) :
    ((ofExcept (.ok a) : Traced ε α) >>= f).log = (f a).log :=
  log_bind_of_ok (x := ofExcept (.ok a)) rfl f

@[simp] theorem log_tell_bind (e : Event) (f : Unit → Traced ε β) :
    (tell e >>= f).log = e :: (f ()).log :=
  log_bind_of_ok (x := tell e) rfl f

end Traced

def Descriptor.hasKeys : Descriptor → Bool
  | .db access => access.pk.isSome || access.sk.isSome
  | _ => false

def stepEvents (d : Descriptor) (s : Step) : List Event :=
  (if d.hasKeys then [.keysIgnored s.name] else []) ++ [.stepBuilt s.name s.kind]

def Resolver.executables : Resolver → List Descriptor
  | .single _ => []
  | .pipeline ds => ds.filter Descriptor.isExecutable

def fieldEvents (r : Resolver) (f : CompiledField) : List Event :=
  ((r.executables.zip f.steps).flatMap fun (d, s) => stepEvents d s) ++
    (if r.isPipeline then [.pipelineAssembled f.steps.length] else []) ++
    [.fieldCompiled f.operation f.field r.isPipeline f.functions.length]

theorem assembleNext_log {p : Pipeline} {d : Descriptor} {s : Step}
    (h : d.Builds handles app p.nextName p.nextScope s) :
    (assembleNext handles app p d).log = stepEvents d s := by
  have hstep : d.step? handles app p.nextName p.nextScope = some (.ok s) := Descriptor.builds_iff.1 h
  cases d with
  | add fields => cases h
  | guard pk sk =>
    rw [assembleNext, Option.some.inj hstep, Traced.log_ofExcept_bind]
    rfl
  | db access =>
    cases h
    rw [assembleNext, Step.data_eq, stepEvents, Descriptor.hasKeys]
    cases access.pk.isSome || access.sk.isSome <;> rfl
  | emit event data =>
    rw [assembleNext, Option.some.inj hstep, Traced.log_ofExcept_bind]
    rfl

theorem assembleAll_log {p : Pipeline} (hp : p.Ordinary) {ds : List Descriptor} {steps : List Step}
    (h : stepsFrom handles app p.operation p.field p.size (p.has .dbResult) ds = .ok steps) :
    (assembleAll handles app p ds).log =
      ((ds.filter Descriptor.isExecutable).zip steps).flatMap fun (d, s) => stepEvents d s := by
  -- By induction on the descriptors, as for the result: `Ordinary` says that no built step is refused.
  induction ds generalizing p steps with
  | nil => rfl
  | cons d rest ih =>
    obtain ⟨hadd, htail⟩ | ⟨s, tail, hd, htail, rfl⟩ := stepsFrom_cons_ok h
    · obtain ⟨fields, rfl⟩ := Descriptor.isExecutable_eq_false.1 hadd
      have hp' : Pipeline.Ordinary (p.mergeExtraFields fields) := ⟨hp.has_input, hp.names⟩
      exact ih hp' htail
    · have hs : s.Fits p.nextName (p.has .dbResult) := hd.fits
      rw [← Pipeline.size_append p s, ← hd.has_append] at htail
      rw [assembleAll, Traced.log_bind_of_ok (assembleNext_ok hp hd), assembleNext_log hd,
        ih (hp.append hs) htail, List.filter_cons_of_pos hd.isExecutable, List.zip_cons_cons,
        List.flatMap_cons]

theorem compileField_log {r : Resolver} {f : CompiledField}
    (h : CompilesTo handles app (operation, field, r) f) :
    (compileField handles app operation field r).log =
      ((r.executables.zip f.steps).flatMap fun (d, s) => stepEvents d s) ++
        if r.isPipeline then [.pipelineAssembled f.steps.length] else [] := by
  cases r with
  | single d =>
    cases d with
    | db access => rfl
    | _ => cases h
  | pipeline ds =>
    obtain ⟨hexec, steps, fields, hsteps, hfields, rfl⟩ := compilesTo_pipeline.1 h
    have hp := Pipeline.ordinary_new operation field
    have hassemble : (assemble handles app operation field ds).result =
        .ok (.ofSteps operation field steps (mergedFields ds)) := by
      rw [assemble_of_executable hexec, assembleAll_result hp]
      exact bind_eq_ok.2 ⟨steps, hsteps, rfl⟩
    have htemplates : ResolverTemplates.pipeline (.ofSteps operation field steps (mergedFields ds)) =
        .ok (.pipelineOf operation fields) :=
      ResolverTemplates.pipeline_eq_ok.2 ⟨fields, hfields, rfl⟩
    rw [compileField, compilePipeline, Traced.log_bind_of_ok hassemble, htemplates,
      Traced.log_ofExcept_bind, Traced.log_tell_bind, assemble_of_executable hexec,
      assembleAll_log hp hsteps]
    rfl

theorem compileEntry_log {e : Operation × String × Resolver} {f : CompiledField}
    (h : CompilesTo handles app e f) : (compileEntry handles app e).log = fieldEvents e.2.2 f := by
  obtain ⟨operation, field, r⟩ := e
  obtain ⟨hoperation, hfield⟩ := Prod.mk.inj h.key
  have hresult : ((compileField handles app operation field r).mapError
      (CompileError.mk operation field)).result = .ok f := by
    rw [Traced.result_mapError, mapError_eq_ok]
    exact h
  rw [compileEntry, Traced.log_bind_of_ok hresult, Traced.log_mapError, compileField_log h,
    Traced.log_tell_bind, fieldEvents, hoperation, hfield]
  rfl

theorem compileEntry_log_of_error {e : Operation × String × Resolver} {err : CompileError}
    (h : (compileEntry handles app e).result = .error err) :
    (compileEntry handles app e).log = (compileField handles app e.1 e.2.1 e.2.2).log := by
  rw [compileEntry_result] at h
  obtain ⟨operation, field, r⟩ := e
  rw [compileEntry, Traced.log_bind_of_error h, Traced.log_mapError]

theorem compileEntries_log_cons {e : Operation × String × Resolver} {f : CompiledField}
    (h : CompilesTo handles app e f) (rest : List (Operation × String × Resolver)) :
    (compileEntries handles app (e :: rest)).log =
      (compileEntry handles app e).log ++ (compileEntries handles app rest).log := by
  rw [compileEntries, Traced.log_bind_of_ok (compileEntry_eq_ok.2 h), Traced.log_bind_pure]

theorem compileEntries_log_of_error {e : Operation × String × Resolver} {err : CompileError}
    (h : (compileEntry handles app e).result = .error err)
    (rest : List (Operation × String × Resolver)) :
    (compileEntries handles app (e :: rest)).log = (compileEntry handles app e).log := by
  rw [compileEntries, Traced.log_bind_of_error h]

theorem compileEntries_log_append {before : List (Operation × String × Resolver)}
    (h : ∀ b ∈ before, ∃ f, CompilesTo handles app b f)
    (rest : List (Operation × String × Resolver)) :
    (compileEntries handles app (before ++ rest)).log =
      (before.flatMap fun b => (compileEntry handles app b).log) ++
        (compileEntries handles app rest).log := by
  induction before with
  | nil => rfl
  | cons b before ih =>
    obtain ⟨⟨f, hf⟩, hbefore⟩ := List.forall_mem_cons.1 h
    rw [List.cons_append, compileEntries_log_cons hf, ih hbefore, List.flatMap_cons,
      List.append_assoc]

theorem compileEntries_log {entries : List (Operation × String × Resolver)}
    {fs : List CompiledField} (h : List.Forall₂ (CompilesTo handles app) entries fs) :
    (compileEntries handles app entries).log =
      (entries.zip fs).flatMap fun (e, f) => fieldEvents e.2.2 f := by
  induction h with
  | nil => rfl
  | cons hf _ ih =>
    rw [compileEntries_log_cons hf, compileEntry_log hf, ih, List.zip_cons_cons, List.flatMap_cons]

theorem compile_log {d : Definition} {fs : List CompiledField}
    (h : List.Forall₂ (CompilesTo handles d.config) d.resolvers.fields fs) :
    (compile handles d).log = ((d.resolvers.fields.zip fs).flatMap fun (e, f) => fieldEvents e.2.2 f) ++
      [.definitionCompiled fs.length] := by
  rw [compile, Traced.log_bind_of_ok (compileEntries_eq_ok.2 h), compileEntries_log h,
    Traced.log_tell_bind]
  rfl

theorem compile_log_of_error {d : Definition} {err : CompileError}
    (h : (compile handles d).result = .error err) :
    (compile handles d).log = (compileEntries handles d.config d.resolvers.fields).log := by
  rw [compile, Traced.log_bind_of_error (compile_eq_error.1 h)]

section Parts

def Traced.LogsOnly (P : Event → Prop) (x : Traced ε α) : Prop := ∀ e ∈ x.log, P e

namespace Traced.LogsOnly

variable {P Q : Event → Prop}

theorem ofExcept (r : Except ε α) : LogsOnly P (.ofExcept r) := fun _ he => nomatch he

theorem tell {e : Event} (h : P e) : LogsOnly P (.tell e : Traced ε Unit) := by
  simpa [LogsOnly] using h

theorem bind {x : Traced ε α} {f : α → Traced ε β} (hx : LogsOnly P x)
    (hf : ∀ a, LogsOnly P (f a)) : LogsOnly P (x >>= f) := by
  cases hr : x.result with
  | ok a =>
    rw [LogsOnly, log_bind_of_ok hr, List.forall_mem_append]
    exact ⟨hx, hf a⟩
  | error e =>
    rw [LogsOnly, log_bind_of_error hr]
    exact hx

theorem mono {x : Traced ε α} (hPQ : ∀ e, P e → Q e) (hx : LogsOnly P x) : LogsOnly Q x :=
  fun e he => hPQ e (hx e he)

end Traced.LogsOnly

/-- Whether the event is about a part of a field, and neither about a whole field nor about more. -/
def Event.isPart : Event → Bool
  | .keysIgnored _ | .stepBuilt _ _ | .pipelineAssembled _ => true
  | _ => false

open Traced (LogsOnly)

theorem assembleNext_logsOnly (p : Pipeline) (d : Descriptor) :
    LogsOnly (Event.isPart ·) (assembleNext handles app p d) := by
  have hextend : ∀ s, LogsOnly (Event.isPart ·) (p.extend s) := fun s =>
    .bind (.tell rfl) fun _ => .ofExcept _
  cases d with
  | add fields => exact .ofExcept (.ok _)
  | guard pk sk => exact .bind (.ofExcept _) hextend
  | db access =>
    rw [assembleNext]
    split
    · exact .bind (.tell rfl) fun _ => .bind (.ofExcept _) hextend
    · exact .bind (.ofExcept _) hextend
  | emit event data => exact .bind (.ofExcept _) hextend

theorem assembleAll_logsOnly (p : Pipeline) (ds : List Descriptor) :
    LogsOnly (Event.isPart ·) (assembleAll handles app p ds) := by
  induction ds generalizing p with
  | nil => exact .ofExcept (.ok p)
  | cons d rest ih => exact .bind (assembleNext_logsOnly p d) ih

theorem compileField_logsOnly (r : Resolver) :
    LogsOnly (Event.isPart ·) (compileField handles app operation field r) := by
  cases r with
  | single d =>
    cases d with
    | _ => exact .ofExcept _
  | pipeline ds =>
    have hassemble : LogsOnly (Event.isPart ·) (assemble handles app operation field ds) := by
      rw [assemble]
      split
      · exact .ofExcept _
      · split
        · exact .ofExcept _
        · exact assembleAll_logsOnly _ ds
    exact .bind hassemble fun p => .bind (.ofExcept _) fun t =>
      .bind (.tell rfl) fun _ => .ofExcept (.ok _)

end Parts

section Alone

variable {d : Definition} {e : Operation × String × Resolver}

theorem compile_only_log {f : CompiledField} (h : CompilesTo handles d.config e f) :
    (compile handles (d.only e)).log =
      (compileEntry handles d.config e).log ++ [.definitionCompiled 1] := by
  have hfields : List.Forall₂ (CompilesTo handles (d.only e).config)
      (d.only e).resolvers.fields [f] := by
    rw [Definition.only, Resolvers.fields_only]
    exact .cons h .nil
  rw [compile_log hfields, compileEntry_log h, Definition.only, Resolvers.fields_only]
  simp

theorem compile_only_log_of_error {err : CompileError}
    (h : (compileEntry handles d.config e).result = .error err) :
    (compile handles (d.only e)).log = (compileEntry handles d.config e).log := by
  rw [compile_log_of_error (compile_only_eq_error.2 h), Definition.only, Resolvers.fields_only,
    compileEntries_log_of_error h]

end Alone

end ResolverPipeline
