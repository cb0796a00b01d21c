import ResolverPipeline.Compile
import ResolverPipeline.Proofs.Assembly

namespace ResolverPipeline

variable {handles : Handles} {app : AppConfig} {operation : Operation} {field : String}

namespace CompiledField

def ofUnit (handles : Handles) (operation : Operation) (field : String)
    (t : ResolverTemplates) : CompiledField where
  operation := operation
  field := field
  resolver := .unit handles.store
  requestTemplate := t.request
  responseTemplate := t.response
  dependsOn := [.dataSource handles.store, .schema handles.schema]

def ofPipeline (handles : Handles) (p : Pipeline) (t : ResolverTemplates) : CompiledField where
  operation := p.operation
  field := p.field
  resolver := .pipeline p
  requestTemplate := t.request
  responseTemplate := t.response
  dependsOn := p.stepDependencies ++ [.dataSource handles.store, .schema handles.schema]

end CompiledField

theorem compileField_unit (access : DbAccess) :
    (compileField handles app operation field (.single (.db access))).result = do
      let (pk, sk) ← ResolverTemplates.directKeys access
      return .ofUnit handles operation field (.unitOf access.action pk sk) := by
  simp only [compileField, compileUnit, Traced.result_ofExcept, ResolverTemplates.unit_eq]
  cases ResolverTemplates.directKeys access <;> rfl

theorem compileField_pipeline (ds : List Descriptor) :
    (compileField handles app operation field (.pipeline ds)).result =
      if ds.isEmpty then .error .emptyPipeline
      else if !ds.any Descriptor.isExecutable then .error .noExecutableSteps
      else do
        let steps ← stepsFrom handles app operation field 0 false ds
        let fields ← ResolverTemplates.resolveExtra (mergedFields ds).entries
        return .ofPipeline handles (.ofSteps operation field steps (mergedFields ds))
          (.pipelineOf operation fields) := by
  simp only [compileField, compilePipeline, Traced.result_bind, assemble_result]
  split
  · rfl
  · split
    · rfl
    · cases stepsFrom handles app operation field 0 false ds with
      | error e => rfl
      | ok steps =>
        simp only [except_ok_bind, except_pure, Traced.result_ofExcept,
          ResolverTemplates.pipeline_eq, Pipeline.extraFields_ofSteps]
        cases ResolverTemplates.resolveExtra (mergedFields ds).entries <;> rfl

theorem compileField_of_executable {ds : List Descriptor}
    (hexec : ∃ d ∈ ds, d.isExecutable = true) :
    (compileField handles app operation field (.pipeline ds)).result = do
      let steps ← stepsFrom handles app operation field 0 false ds
      let fields ← ResolverTemplates.resolveExtra (mergedFields ds).entries
      return .ofPipeline handles (.ofSteps operation field steps (mergedFields ds))
        (.pipelineOf operation fields) := by
  have hany : ds.any Descriptor.isExecutable = true := List.any_eq_true.2 hexec
  have hempty : ds.isEmpty = false := by
    obtain ⟨d, hd, -⟩ := hexec
    exact List.isEmpty_eq_false_iff_exists_mem.2 ⟨d, hd⟩
  simp only [compileField_pipeline, hempty, hany, Bool.not_true, Bool.false_eq_true, if_false]

def CompilesTo (handles : Handles) (app : AppConfig) (entry : Operation × String × Resolver)
    (f : CompiledField) : Prop :=
  (compileField handles app entry.1 entry.2.1 entry.2.2).result = .ok f

theorem compilesTo_unit {access : DbAccess} {f : CompiledField} :
    CompilesTo handles app (operation, field, .single (.db access)) f ↔
      ∃ pk sk, ResolverTemplates.directKeys access = .ok (pk, sk) ∧
        f = .ofUnit handles operation field (.unitOf access.action pk sk) := by
  rw [CompilesTo, compileField_unit, bind_eq_ok]
  constructor
  · rintro ⟨⟨pk, sk⟩, hkeys, hf⟩
    cases hf
    exact ⟨pk, sk, hkeys, rfl⟩
  · rintro ⟨pk, sk, hkeys, rfl⟩
    exact ⟨(pk, sk), hkeys, rfl⟩

theorem compilesTo_pipeline {ds : List Descriptor} {f : CompiledField} :
    CompilesTo handles app (operation, field, .pipeline ds) f ↔
      (∃ d ∈ ds, d.isExecutable = true) ∧
      ∃ steps fields, stepsFrom handles app operation field 0 false ds = .ok steps ∧
        List.Forall₂ (ResolvedEntry (.pipeline false)) (mergedFields ds).entries fields ∧
        f = .ofPipeline handles (.ofSteps operation field steps (mergedFields ds))
          (.pipelineOf operation fields) := by
  rw [CompilesTo]
  by_cases hexec : ∃ d ∈ ds, d.isExecutable = true
  · simp only [hexec, true_and, compileField_of_executable hexec, bind_eq_ok,
      ResolverTemplates.resolveExtra_eq, resolveEntries_eq_ok, except_pure, Except.ok.injEq]
    constructor
    · rintro ⟨steps, hsteps, fields, hfields, rfl⟩
      exact ⟨steps, fields, hsteps, hfields, rfl⟩
    · rintro ⟨steps, fields, hsteps, hfields, rfl⟩
      exact ⟨steps, hsteps, fields, hfields, rfl⟩
  · have hany : ds.any Descriptor.isExecutable = false := by
      rw [← Bool.not_eq_true, List.any_eq_true]
      exact hexec
    simp only [compileField_pipeline, hexec, hany, false_and, iff_false]
    split
    · intro h
      cases h
    · intro h
      cases h

theorem CompilesTo.cases {resolver : Resolver} {f : CompiledField}
    (h : CompilesTo handles app (operation, field, resolver) f) :
    (∃ access pk sk, ResolverTemplates.directKeys access = .ok (pk, sk) ∧
      f = .ofUnit handles operation field (.unitOf access.action pk sk)) ∨
    ∃ ds steps fields, stepsFrom handles app operation field 0 false ds = .ok steps ∧
      List.Forall₂ (ResolvedEntry (.pipeline false)) (mergedFields ds).entries fields ∧
      f = .ofPipeline handles (.ofSteps operation field steps (mergedFields ds))
        (.pipelineOf operation fields) := by
  cases resolver with
  | single d =>
    cases d with
    | add fields => cases h
    | guard pk sk => cases h
    | db access => exact .inl ⟨access, compilesTo_unit.1 h⟩
    | emit event data => cases h
  | pipeline ds => exact .inr ⟨ds, (compilesTo_pipeline.1 h).2⟩

theorem compileEntry_result (entry : Operation × String × Resolver) :
    (compileEntry handles app entry).result =
      (compileField handles app entry.1 entry.2.1 entry.2.2).result.mapError
        (⟨entry.1, entry.2.1, ·⟩) := by
  obtain ⟨operation, field, resolver⟩ := entry
  simp only [compileEntry, Traced.result_bind, Traced.result_mapError, Traced.result_tell,
    Traced.pure_def]
  cases (compileField handles app operation field resolver).result <;> rfl

theorem compileEntry_eq_ok {entry : Operation × String × Resolver} {f : CompiledField} :
    (compileEntry handles app entry).result = .ok f ↔ CompilesTo handles app entry f := by
  rw [compileEntry_result, mapError_eq_ok]
  rfl

theorem compileEntries_eq_ok {entries : List (Operation × String × Resolver)}
    {fs : List CompiledField} :
    (compileEntries handles app entries).result = .ok fs ↔
      List.Forall₂ (CompilesTo handles app) entries fs := by
  induction entries generalizing fs with
  | nil => simp [compileEntries, eq_comm]
  | cons entry rest ih =>
    simp only [compileEntries, Traced.result_bind, bind_eq_ok, compileEntry_eq_ok, ih,
      Traced.pure_def, Except.ok.injEq, List.forall₂_cons_left_iff]
    constructor
    · rintro ⟨f, hf, tail, htail, rfl⟩
      exact ⟨f, tail, hf, htail, rfl⟩
    · rintro ⟨f, tail, hf, htail, rfl⟩
      exact ⟨f, hf, tail, htail, rfl⟩

theorem compileEntry_eq_error {entry : Operation × String × Resolver} {e : CompileError} :
    (compileEntry handles app entry).result = .error e ↔ ∃ source,
      (compileField handles app entry.1 entry.2.1 entry.2.2).result = .error source ∧
        ⟨entry.1, entry.2.1, source⟩ = e := by
  rw [compileEntry_result, mapError_eq_error]

theorem compileEntries_eq_error {entries : List (Operation × String × Resolver)}
    {e : CompileError} :
    (compileEntries handles app entries).result = .error e ↔ ∃ before entry after,
      entries = before ++ entry :: after ∧ (∀ b ∈ before, ∃ f, CompilesTo handles app b f) ∧
        (compileEntry handles app entry).result = .error e := by
  induction entries with
  | nil => simp [compileEntries]
  | cons entry rest ih =>
    simp only [compileEntries, Traced.result_bind, bind_eq_error, ih, Traced.pure_def]
    constructor
    · rintro (herror | ⟨f, hf, ⟨before, next, after, rfl, hbefore, herror⟩ | ⟨_, _, h⟩⟩)
      · exact ⟨[], entry, rest, rfl, by simp, herror⟩
      · have hentry : ∃ f, CompilesTo handles app entry f := ⟨f, compileEntry_eq_ok.1 hf⟩
        exact ⟨entry :: before, next, after, rfl, List.forall_mem_cons.2 ⟨hentry, hbefore⟩, herror⟩
      · cases h
    · rintro ⟨before, next, after, hsplit, hbefore, herror⟩
      cases before with
      | nil =>
        cases hsplit
        exact .inl herror
      | cons b before =>
        cases hsplit
        obtain ⟨⟨f, hf⟩, hbefore⟩ := List.forall_mem_cons.1 hbefore
        exact .inr ⟨f, compileEntry_eq_ok.2 hf, .inl ⟨before, next, after, rfl, hbefore, herror⟩⟩

theorem compileEntries_error {entries : List (Operation × String × Resolver)} {e : CompileError}
    (h : (compileEntries handles app entries).result = .error e) :
    ∃ r, (e.operation, e.field, r) ∈ entries ∧
      (compileField handles app e.operation e.field r).result = .error e.source := by
  obtain ⟨before, entry, after, rfl, -, herror⟩ := compileEntries_eq_error.1 h
  obtain ⟨source, hsource, rfl⟩ := compileEntry_eq_error.1 herror
  exact ⟨entry.2.2, List.mem_append_right before List.mem_cons_self, hsource⟩

def Api.ofFields (d : Definition) (fields : List CompiledField) : Api where
  name := d.config.name
  region := d.config.regionOrDefault
  tableName := d.config.tableName
  eventBus := d.config.eventBusOrDefault
  schema := d.schema
  fields := fields

theorem compile_result (d : Definition) :
    (compile handles d).result = do
      let fields ← (compileEntries handles d.config d.resolvers.fields).result
      return Api.ofFields d fields := by
  simp only [compile, Traced.result_bind]
  cases (compileEntries handles d.config d.resolvers.fields).result <;> rfl

theorem compile_eq_ok {d : Definition} {api : Api} :
    (compile handles d).result = .ok api ↔ ∃ fs,
      List.Forall₂ (CompilesTo handles d.config) d.resolvers.fields fs ∧
        Api.ofFields d fs = api := by
  simp only [compile_result, bind_eq_ok, compileEntries_eq_ok, except_pure, Except.ok.injEq]

theorem compile_accepts {d : Definition} :
    (∃ api, (compile handles d).result = .ok api) ↔
      ∀ e ∈ d.resolvers.fields, ∃ f, CompilesTo handles d.config e f := by
  rw [← exists_forall₂]
  simp only [compile_eq_ok]
  constructor
  · rintro ⟨_, fs, hfs, -⟩
    exact ⟨fs, hfs⟩
  · rintro ⟨fs, hfs⟩
    exact ⟨_, fs, hfs, rfl⟩

theorem compile_eq_error {d : Definition} {e : CompileError} :
    (compile handles d).result = .error e ↔
      (compileEntries handles d.config d.resolvers.fields).result = .error e := by
  rw [compile_result, bind_eq_error]
  simp

theorem compile_error {d : Definition} {e : CompileError}
    (h : (compile handles d).result = .error e) :
    ∃ r, (e.operation, e.field, r) ∈ d.resolvers.fields ∧
      (compileField handles d.config e.operation e.field r).result = .error e.source :=
  compileEntries_error (compile_eq_error.1 h)

end ResolverPipeline
