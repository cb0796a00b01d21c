import ResolverPipeline.Proofs.Insertion
import ResolverPipeline.Proofs.Naming

namespace ResolverPipeline

variable {handles : Handles} {app : AppConfig}

def Resolvers.only (e : Operation × String × Resolver) : Resolvers := insert {} e

@[simp] theorem Resolvers.fields_only (e : Operation × String × Resolver) :
    (only e).fields = [e] := by
  obtain ⟨operation, name, resolver⟩ := e
  cases operation <;> rfl

def Definition.only (d : Definition) (e : Operation × String × Resolver) : Definition :=
  { d with resolvers := .only e }

theorem compile_only_eq_ok {d : Definition} {e : Operation × String × Resolver} {api : Api} :
    (compile handles (d.only e)).result = .ok api ↔
      ∃ f, CompilesTo handles d.config e f ∧ Api.ofFields d [f] = api := by
  simp only [compile_eq_ok, Definition.only, Resolvers.fields_only, List.forall₂_cons_left_iff,
    List.forall₂_nil_left_iff]
  constructor
  · rintro ⟨_, ⟨f, _, hf, rfl, rfl⟩, rfl⟩
    exact ⟨f, hf, rfl⟩
  · rintro ⟨f, hf, rfl⟩
    exact ⟨_, ⟨f, _, hf, rfl, rfl⟩, rfl⟩

theorem compile_only_eq_error {d : Definition} {e : Operation × String × Resolver}
    {err : CompileError} :
    (compile handles (d.only e)).result = .error err ↔
      (compileEntry handles d.config e).result = .error err := by
  simp only [compile_eq_error, Definition.only, Resolvers.fields_only, compileEntries,
    Traced.result_bind, bind_eq_error, Traced.pure_def]
  simp

theorem compile_only_accepts {d : Definition} {e : Operation × String × Resolver} :
    (∃ api, (compile handles (d.only e)).result = .ok api) ↔
      ∃ f, CompilesTo handles d.config e f := by
  simp only [compile_only_eq_ok]
  constructor
  · rintro ⟨_, f, hf, -⟩
    exact ⟨f, hf⟩
  · rintro ⟨f, hf⟩
    exact ⟨_, f, hf, rfl⟩

theorem find?_of_compilesTo {entries : List (Operation × String × Resolver)}
    {fs : List CompiledField} (h : List.Forall₂ (CompilesTo handles app) entries fs)
    (hkeys : (entries.map Resolvers.key).Nodup) {e : Operation × String × Resolver}
    (he : e ∈ entries) : ∃ f, CompilesTo handles app e f ∧
      fs.find? (fun f => f.operation = e.1 && f.field = e.2.1) = some f := by
  induction h with
  | nil => cases he
  | @cons e₀ f₀ entries fs hf _ ih =>
    rw [List.map_cons, List.nodup_cons] at hkeys
    obtain ⟨hoperation, hfield⟩ := Prod.mk.inj hf.key
    obtain rfl | he := List.mem_cons.1 he
    · exact ⟨f₀, hf, by simp [hoperation, hfield]⟩
    · obtain ⟨f, hf, hfind⟩ := ih hkeys.2 he
      refine ⟨f, hf, ?_⟩
      rw [List.find?_cons_of_neg, hfind]
      intro hmatch
      simp only [hoperation, hfield, Bool.and_eq_true, decide_eq_true_eq] at hmatch
      have hkey : Resolvers.key e = Resolvers.key e₀ := Prod.ext hmatch.1.symm hmatch.2.symm
      exact hkeys.1 (List.mem_map.2 ⟨e, he, hkey⟩)

theorem find?_eq_none_of_compilesTo {entries : List (Operation × String × Resolver)}
    {fs : List CompiledField} (h : List.Forall₂ (CompilesTo handles app) entries fs)
    {operation : Operation} {field : String}
    (habsent : ∀ resolver, (operation, field, resolver) ∉ entries) :
    fs.find? (fun f => f.operation = operation && f.field = field) = none := by
  rw [List.find?_eq_none]
  intro f hf hmatch
  obtain ⟨e, he, hfe⟩ := exists_mem_of_forall₂ h hf
  obtain ⟨hoperation, hfield⟩ := Prod.mk.inj hfe.key
  simp only [hoperation, hfield, Bool.and_eq_true, decide_eq_true_eq] at hmatch
  obtain ⟨rfl, rfl⟩ := hmatch
  exact habsent e.2.2 he

structure FieldByField (handles : Handles) (d : Definition) : Prop where
  ordered : d.resolvers.fields.Pairwise Resolvers.Before
  accepts : (∃ api, (compile handles d).result = .ok api) ↔
    ∀ e ∈ d.resolvers.fields, ∃ api, (compile handles (d.only e)).result = .ok api
  fields : ∀ api, (compile handles d).result = .ok api →
    List.Forall₂ (fun e f => (compile handles (d.only e)).result = .ok { api with fields := [f] })
      d.resolvers.fields api.fields
  error : ∀ err, (compile handles d).result = .error err ↔ ∃ before e after,
    d.resolvers.fields = before ++ e :: after ∧
      (∀ b ∈ before, ∃ api, (compile handles (d.only b)).result = .ok api) ∧
      (compile handles (d.only e)).result = .error err
  insertion : ∀ es, es.Perm d.resolvers.fields →
    compile handles { d with resolvers := .ofEntries es } = compile handles d
  /-- Where the field is defined as well, other fields and the schema make no difference to it. -/
  stable : ∀ d' api api' e, d'.config = d.config → e ∈ d.resolvers.fields →
    e ∈ d'.resolvers.fields → (compile handles d).result = .ok api →
    (compile handles d').result = .ok api' → api'.field? e.1 e.2.1 = api.field? e.1 e.2.1
  found : ∀ api, (compile handles d).result = .ok api → ∀ e ∈ d.resolvers.fields,
    ∃ f, api.field? e.1 e.2.1 = some f ∧
      (compile handles (d.only e)).result = .ok { api with fields := [f] }
  absent : ∀ api, (compile handles d).result = .ok api → ∀ operation field,
    (∀ resolver, (operation, field, resolver) ∉ d.resolvers.fields) →
    api.field? operation field = none

theorem field?_of_compile {d : Definition} {api : Api} (h : (compile handles d).result = .ok api)
    {e : Operation × String × Resolver} (he : e ∈ d.resolvers.fields) :
    ∃ f, CompilesTo handles d.config e f ∧ api.field? e.1 e.2.1 = some f := by
  obtain ⟨fs, hfs, rfl⟩ := compile_eq_ok.1 h
  exact find?_of_compilesTo hfs d.resolvers.nodup_keys he

theorem ofEntries_of_perm {r : Resolvers} {es : List (Operation × String × Resolver)}
    (h : es.Perm r.fields) : Resolvers.ofEntries es = r := by
  have hkeys : (es.map Resolvers.key).Nodup := (h.map _).nodup_iff.2 r.nodup_keys
  exact Resolvers.eq_of_perm ((Resolvers.ofEntries_perm hkeys).trans h)

/-- Fields compile independently, in an order of their own. -/
theorem compile_fieldByField (handles : Handles) (d : Definition) : FieldByField handles d where
  ordered := d.resolvers.fields_ordered
  accepts := by
    rw [compile_accepts]
    simp only [compile_only_accepts]
  fields := by
    intro api h
    obtain ⟨fs, hfs, rfl⟩ := compile_eq_ok.1 h
    exact hfs.imp fun e f hf => compile_only_eq_ok.2 ⟨f, hf, rfl⟩
  error := by
    intro err
    rw [compile_eq_error, compileEntries_eq_error]
    simp only [compile_only_accepts, compile_only_eq_error]
  insertion := by
    intro es h
    rw [ofEntries_of_perm h]
  stable := by
    intro d' api api' e hconfig he he' h h'
    obtain ⟨f, hf, hfind⟩ := field?_of_compile h he
    obtain ⟨f', hf', hfind'⟩ := field?_of_compile h' he'
    rw [hconfig] at hf'
    have hsame : Except.ok f' = Except.ok f := hf'.symm.trans hf
    rw [hfind, hfind', Except.ok.inj hsame]
  found := by
    intro api h e he
    obtain ⟨f, hf, hfind⟩ := field?_of_compile h he
    obtain ⟨fs, hfs, rfl⟩ := compile_eq_ok.1 h
    exact ⟨f, hfind, compile_only_eq_ok.2 ⟨f, hf, rfl⟩⟩
  absent := by
    intro api h operation field habsent
    obtain ⟨fs, hfs, rfl⟩ := compile_eq_ok.1 h
    exact find?_eq_none_of_compilesTo hfs habsent

end ResolverPipeline
