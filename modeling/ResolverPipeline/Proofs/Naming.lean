import ResolverPipeline.Proofs.Compilation

namespace ResolverPipeline

variable {handles : Handles} {app : AppConfig}

theorem SortedMap.nodup_names {α : Type} (m : SortedMap α) : (m.entries.map Prod.fst).Nodup := by
  rw [List.nodup_iff_pairwise_ne, List.pairwise_map]
  apply m.sorted.imp
  intro a b hab heq
  rw [heq] at hab
  exact String.lt_irrefl b.1 hab

theorem Resolvers.nodup_keys (r : Resolvers) : (r.fields.map fun e => (e.1, e.2.1)).Nodup := by
  have hgroup : ∀ (o : Operation) (m : SortedMap Resolver),
      (m.entries.map fun e => (o, e.1)).Nodup := by
    intro o m
    have hnames := m.nodup_names
    rw [List.nodup_iff_pairwise_ne, List.pairwise_map] at hnames ⊢
    apply hnames.imp
    intro a b hab heq
    exact hab (Prod.mk.inj heq).2
  simp only [Resolvers.fields, List.map_append, List.map_map]
  rw [List.nodup_append]
  refine ⟨hgroup .query r.query, hgroup .mutation r.mutation, ?_⟩
  rintro key hquery _ hmutation rfl
  obtain ⟨a, -, rfl⟩ := List.mem_map.1 hquery
  obtain ⟨b, -, hb⟩ := List.mem_map.1 hmutation
  cases hb

theorem CompilesTo.key {entry : Operation × String × Resolver} {f : CompiledField}
    (h : CompilesTo handles app entry f) : (f.operation, f.field) = (entry.1, entry.2.1) := by
  obtain ⟨access, pk, sk, -, rfl⟩ | ⟨ds, steps, fields, -, -, rfl⟩ := h.cases
  · rfl
  · rfl

theorem CompilesTo.step_names {entry : Operation × String × Resolver} {f : CompiledField}
    (h : CompilesTo handles app entry f) : ∀ i, (hi : i < f.steps.length) →
      f.steps[i].name = stepName f.operation f.field f.steps[i].kind i := by
  obtain ⟨access, pk, sk, -, rfl⟩ | ⟨ds, steps, fields, hsteps, -, rfl⟩ := h.cases
  · intro i hi
    exact absurd hi (Nat.not_lt_zero i)
  · intro i hi
    have hname := stepsFrom_names hsteps i hi
    rw [Nat.zero_add] at hname
    exact hname

theorem CompilesTo.nodup_names {entry : Operation × String × Resolver} {f : CompiledField}
    (h : CompilesTo handles app entry f) : f.steps.Pairwise fun s t => s.name ≠ t.name := by
  rw [List.pairwise_iff_getElem]
  intro i j hi hj hij heq
  rw [h.step_names i hi, h.step_names j hj] at heq
  exact absurd (stepName_inj heq).2.2.2 (Nat.ne_of_lt hij)

theorem keys_of_compilesTo {entries : List (Operation × String × Resolver)}
    {fs : List CompiledField} (h : List.Forall₂ (CompilesTo handles app) entries fs) :
    fs.map (fun f => (f.operation, f.field)) = entries.map fun e => (e.1, e.2.1) := by
  induction h with
  | nil => rfl
  | cons hf _ ih => rw [List.map_cons, List.map_cons, hf.key, ih]

theorem pairwise_names_of_compilesTo {entries : List (Operation × String × Resolver)}
    {fs : List CompiledField} (h : List.Forall₂ (CompilesTo handles app) entries fs)
    (hkeys : (entries.map fun e => (e.1, e.2.1)).Nodup) :
    (fs.flatMap CompiledField.steps).Pairwise fun s t => s.name ≠ t.name := by
  rw [List.pairwise_flatMap]
  constructor
  · intro f hf
    obtain ⟨entry, -, hentry⟩ := exists_mem_of_forall₂ h hf
    exact hentry.nodup_names
  · rw [← keys_of_compilesTo h, List.nodup_iff_pairwise_ne, List.pairwise_map] at hkeys
    apply hkeys.imp_of_mem
    intro f g hf hg hne s hs t ht heq
    obtain ⟨_, -, hf⟩ := exists_mem_of_forall₂ h hf
    obtain ⟨_, -, hg⟩ := exists_mem_of_forall₂ h hg
    obtain ⟨i, hi, rfl⟩ := List.getElem_of_mem hs
    obtain ⟨j, hj, rfl⟩ := List.getElem_of_mem ht
    rw [hf.step_names i hi, hg.step_names j hj] at heq
    obtain ⟨ho, hfield, -, -⟩ := stepName_inj heq
    exact hne (Prod.ext ho hfield)

/-- Names determine operation, field, kind and ordinal; no two steps of an application share one. -/
theorem stepNames_unique :
    (∀ {o o' : Operation} {f f' : String} {k k' : StepKind} {n n' : Nat},
      stepName o f k n = stepName o' f' k' n' → o = o' ∧ f = f' ∧ k = k' ∧ n = n') ∧
    ∀ {handles : Handles} {d : Definition} {api : Api},
      (compile handles d).result = .ok api → (api.steps.map Step.name).Nodup := by
  refine ⟨stepName_inj, ?_⟩
  intro handles d api h
  obtain ⟨fs, hfs, rfl⟩ := compile_eq_ok.1 h
  rw [List.nodup_iff_pairwise_ne, List.pairwise_map]
  exact pairwise_names_of_compilesTo hfs d.resolvers.nodup_keys

def lookalikes : Definition where
  schema := ""
  resolvers := {
    query := .ofList [
      ("a", .pipeline [.db ⟨.get, none, none⟩, .db ⟨.get, none, none⟩]),
      ("adbget1", .pipeline [.add .empty, .db ⟨.get, none, none⟩, .emit "seen" .empty])]
    mutation := .ofList [
      ("a", .pipeline [.db ⟨.get, none, none⟩]),
      ("a1", .pipeline [.guard "$owner" "profile"])] }
  config := { name := "notes" }

theorem lookalikes_stepNames :
    ∃ api, (compile {} lookalikes).result = .ok api ∧
      api.steps.map Step.name =
        ["qadbget0", "qadbget1", "qadbget1dbget0", "qadbget1emit1", "madbget0", "ma1guard0"] ∧
      (api.steps.map Step.name).Nodup := by
  have hnames : (compile {} lookalikes).result.map (fun api => api.steps.map Step.name) =
      .ok ["qadbget0", "qadbget1", "qadbget1dbget0", "qadbget1emit1", "madbget0", "ma1guard0"] := by
    decide +kernel
  obtain ⟨api, h, hapi⟩ := map_eq_ok.1 hnames
  exact ⟨api, h, hapi, stepNames_unique.2 h⟩

end ResolverPipeline
