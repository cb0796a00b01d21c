import Mathlib.Data.List.Nodup
import ResolverPipeline.Proofs.Naming

namespace ResolverPipeline

variable {handles : Handles} {app : AppConfig} {entry : Operation × String × Resolver}

def Handles.resource (handles : Handles) : StepKind → String
  | .emitEvent => handles.bus
  | .guard | .get | .list | .create | .remove => handles.store

structure Step.RunsAgainst (handles : Handles) (s : Step) : Prop where
  dataSource_eq : s.dataSource = handles.resource s.kind
  dependsOn_eq : s.dependsOn = [.dataSource s.dataSource, .schema handles.schema]

namespace Step.RunsAgainst

variable {s : Step}

theorem step_not_mem (h : s.RunsAgainst handles) (n : String) : .step n ∉ s.dependsOn := by
  simp [h.dependsOn_eq]

theorem dataSource_mem (h : s.RunsAgainst handles) : .dataSource s.dataSource ∈ s.dependsOn := by
  simp [h.dependsOn_eq]

end Step.RunsAgainst

theorem Descriptor.Builds.runsAgainst {d : Descriptor} {name : StepKind → String} {scope : Scope}
    {s : Step} (h : d.Builds handles app name scope s) : s.RunsAgainst handles := by
  cases h with
  | guard hp hk => exact ⟨rfl, rfl⟩
  | db access =>
    obtain ⟨action, pk, sk⟩ := access
    cases action <;> exact ⟨rfl, rfl⟩
  | emit hsource hbus hevent hdetail => exact ⟨rfl, rfl⟩

namespace CompilesTo

variable {f : CompiledField}

theorem runsAgainst (h : CompilesTo handles app entry f) : ∀ s ∈ f.steps, s.RunsAgainst handles := by
  obtain ⟨access, pk, sk, -, rfl⟩ | ⟨ds, steps, fields, hsteps, -, rfl⟩ := h.cases
  · intro s hs
    cases hs
  · intro s hs
    obtain ⟨d, -, n, stored, hd⟩ := exists_mem_of_forall₂ (stepsFrom_builds hsteps) hs
    exact hd.runsAgainst

theorem dependsOn_eq (h : CompilesTo handles app entry f) :
    f.dependsOn = f.functions.map .step ++ [.dataSource handles.store, .schema handles.schema] := by
  obtain ⟨access, pk, sk, -, rfl⟩ | ⟨ds, steps, fields, hsteps, -, rfl⟩ := h.cases
  · rfl
  · rfl

theorem unit_eq (h : CompilesTo handles app entry f) {dataSource : String}
    (hunit : f.resolver = .unit dataSource) : dataSource = handles.store := by
  obtain ⟨access, pk, sk, -, rfl⟩ | ⟨ds, steps, fields, hsteps, -, rfl⟩ := h.cases
  · cases hunit
    rfl
  · cases hunit

theorem step_mem_dependsOn (h : CompilesTo handles app entry f) {n : String} :
    .step n ∈ f.dependsOn ↔ ∃ s ∈ f.steps, s.name = n := by
  simp [h.dependsOn_eq, CompiledField.functions]

end CompilesTo

theorem filter_name_eq {steps : List Step} (h : (steps.map Step.name).Nodup) {s : Step}
    (hs : s ∈ steps) : steps.filter (·.name = s.name) = [s] := by
  obtain ⟨before, after, rfl⟩ := List.append_of_mem hs
  rw [List.map_append, List.map_cons, List.nodup_middle, List.nodup_cons, List.mem_append,
    not_or] at h
  obtain ⟨⟨hbefore, hafter⟩, -⟩ := h
  have hnone : ∀ {ts : List Step}, s.name ∉ ts.map Step.name →
      ts.filter (·.name = s.name) = [] := by
    intro ts hnew
    rw [List.filter_eq_nil_iff]
    intro t ht heq
    exact hnew (List.mem_map.2 ⟨t, ht, of_decide_eq_true heq⟩)
  rw [List.filter_append, List.filter_cons_of_pos (by simp), hnone hbefore, hnone hafter,
    List.nil_append]

/-- What is met on the way from some dependencies: those themselves, and what the steps among them
depend on in turn. -/
inductive Api.Leads (api : Api) (start : List Dependency) : Dependency → Prop
  | named {d : Dependency} : d ∈ start → Leads api start d
  | through {s : Step} {d : Dependency} :
      Leads api start (.step s.name) → s ∈ api.steps → d ∈ s.dependsOn → Leads api start d

structure CompiledField.Resolvable (handles : Handles) (api : Api) (f : CompiledField) : Prop where
  pipeline : ∀ p, f.resolver = .pipeline p →
    f.dependsOn = p.steps.map (fun s => .step s.name) ++
      [.dataSource handles.store, .schema handles.schema] ∧
    f.functions = p.steps.map Step.name
  unit : ∀ dataSource, f.resolver = .unit dataSource → dataSource = handles.store ∧
    f.dependsOn = [.dataSource handles.store, .schema handles.schema] ∧ f.functions = []
  steps : ∀ s ∈ f.steps, s.RunsAgainst handles
  names : ∀ n, .step n ∈ f.dependsOn ∨ (∃ s ∈ f.steps, .step n ∈ s.dependsOn) →
    ∃ s ∈ f.steps, api.steps.filter (·.name = n) = [s]
  leads : ∀ d, api.Leads f.dependsOn d ↔
    d ∈ f.dependsOn ∨ ∃ s ∈ f.steps, d = .dataSource s.dataSource

section Resolvable

variable {api : Api} {f : CompiledField}

theorem CompilesTo.names (h : CompilesTo handles app entry f)
    (hnames : (api.steps.map Step.name).Nodup) (hf : f ∈ api.fields) {n : String}
    (hn : .step n ∈ f.dependsOn) : ∃ s ∈ f.steps, api.steps.filter (·.name = n) = [s] := by
  obtain ⟨s, hs, rfl⟩ := h.step_mem_dependsOn.1 hn
  have hmem : s ∈ api.steps := List.mem_flatMap.2 ⟨f, hf, hs⟩
  exact ⟨s, hs, filter_name_eq hnames hmem⟩

theorem CompilesTo.leads_iff (h : CompilesTo handles app entry f)
    (hnames : (api.steps.map Step.name).Nodup) (hf : f ∈ api.fields) (d : Dependency) :
    api.Leads f.dependsOn d ↔ d ∈ f.dependsOn ∨ ∃ s ∈ f.steps, d = .dataSource s.dataSource := by
  constructor
  · intro hd
    induction hd with
    | named hd => exact .inl hd
    | @through s d _ hs hd ih =>
      -- Names are distinct over the application, so the step met is the one of this field.
      have hmem : s ∈ f.steps := by
        obtain hstep | ⟨_, -, hstep⟩ := ih
        · obtain ⟨t, ht, hfilter⟩ := h.names hnames hf hstep
          rw [filter_name_eq hnames hs, List.singleton_inj] at hfilter
          rwa [hfilter]
        · cases hstep
      rw [(h.runsAgainst s hmem).dependsOn_eq, List.mem_pair] at hd
      obtain rfl | rfl := hd
      · exact .inr ⟨s, hmem, rfl⟩
      · exact .inl (by simp [h.dependsOn_eq])
  · rintro (hd | ⟨s, hs, rfl⟩)
    · exact .named hd
    · have hstep : api.Leads f.dependsOn (.step s.name) :=
        .named (h.step_mem_dependsOn.2 ⟨s, hs, rfl⟩)
      have hmem : s ∈ api.steps := List.mem_flatMap.2 ⟨f, hf, hs⟩
      exact .through hstep hmem (h.runsAgainst s hs).dataSource_mem

theorem CompilesTo.resolvable (h : CompilesTo handles app entry f)
    (hnames : (api.steps.map Step.name).Nodup) (hf : f ∈ api.fields) :
    f.Resolvable handles api where
  pipeline p hp := by
    have hfunctions : f.functions = p.steps.map Step.name := by
      simp [CompiledField.functions, CompiledField.steps, CompiledField.pipeline?, hp]
    refine ⟨?_, hfunctions⟩
    rw [h.dependsOn_eq, hfunctions, List.map_map]
    rfl
  unit dataSource hunit := by
    have hfunctions : f.functions = [] := by
      simp [CompiledField.functions, CompiledField.steps, CompiledField.pipeline?, hunit]
    refine ⟨h.unit_eq hunit, ?_, hfunctions⟩
    rw [h.dependsOn_eq, hfunctions, List.map_nil, List.nil_append]
  steps := h.runsAgainst
  names n hn := by
    obtain hn | ⟨s, hs, hn⟩ := hn
    · exact h.names hnames hf hn
    · exact absurd hn ((h.runsAgainst s hs).step_not_mem n)
  leads := h.leads_iff hnames hf

end Resolvable

/-- Dependencies are complete, in order, and can be followed: whatever a field's steps run against is
met on the way from the field, and nothing else is. -/
theorem compile_resolvable {d : Definition} {api : Api} (h : (compile handles d).result = .ok api) :
    ∀ f ∈ api.fields, f.Resolvable handles api := by
  obtain ⟨fs, hfs, rfl⟩ := compile_eq_ok.1 h
  have hnames : ((Api.ofFields d fs).steps.map Step.name).Nodup := by
    rw [List.nodup_iff_pairwise_ne, List.pairwise_map]
    exact pairwise_names_of_compilesTo hfs d.resolvers.nodup_keys
  intro f hf
  obtain ⟨entry, -, hentry⟩ := exists_mem_of_forall₂ hfs hf
  exact hentry.resolvable hnames hf

def namesakes : Handles where
  schema := "msharedbcreate1"
  store := "mshareguard0"
  bus := "mshareemit2"

def sharedNotes : Definition where
  schema := ""
  resolvers := {
    query := .ofList [("share", .single (.db ⟨.get, none, none⟩))]
    mutation := .ofList [
      ("share", .pipeline [
        .guard "$owner" "profile",
        .add (.ofList [("sk", "note_@id")]),
        .db ⟨.create, none, none⟩,
        .emit "shared" (.ofList [("id", "#sk")])])] }
  config := { name := "notes" }

theorem sharedNotes_resolvable :
    ∃ api, (compile namesakes sharedNotes).result = .ok api ∧
      api.fields.map CompiledField.dependsOn = [
        [.dataSource "mshareguard0", .schema "msharedbcreate1"],
        [.step "mshareguard0", .step "msharedbcreate1", .step "mshareemit2",
          .dataSource "mshareguard0", .schema "msharedbcreate1"]] ∧
      ∀ f ∈ api.fields, f.Resolvable namesakes api := by
  have hdependsOn : (compile namesakes sharedNotes).result.map
      (fun api => api.fields.map CompiledField.dependsOn) = .ok [
        [.dataSource "mshareguard0", .schema "msharedbcreate1"],
        [.step "mshareguard0", .step "msharedbcreate1", .step "mshareemit2",
          .dataSource "mshareguard0", .schema "msharedbcreate1"]] := by
    decide +kernel
  obtain ⟨api, h, hapi⟩ := map_eq_ok.1 hdependsOn
  exact ⟨api, h, hapi, compile_resolvable h⟩

end ResolverPipeline
