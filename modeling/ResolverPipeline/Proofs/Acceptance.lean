import ResolverPipeline.Proofs.Compilation
import ResolverPipeline.Proofs.FieldMap

/-!
Which definitions compile: those whose resolvers are all well-formed.  Well-formedness looks at the
texts of a definition and at their places alone.
-/

namespace ResolverPipeline

variable {handles : Handles} {app : AppConfig} {operation : Operation} {field : String}

namespace Descriptor

def added : Descriptor → List (String × String)
  | .add fields => fields.entries
  | _ => []

def isEmit : Descriptor → Bool
  | .emit _ _ => true
  | _ => false

/-- That the texts of a descriptor are in order where `stored` says whether a result lies before. -/
def WellFormed (stored : Bool) : Descriptor → Prop
  | .add _ | .db _ => True
  | .guard pk sk => Valid stored pk ∧ Valid stored sk
  | .emit event data =>
    Plain event ∧ ∀ key value, (key, value) ∈ data.entries → Plain key ∧ Valid stored value

end Descriptor

def storedBefore (ds : List Descriptor) (i : Nat) : Bool := (ds.take i).any Descriptor.stores

def lastAdded (ds : List Descriptor) (key : String) : Option String :=
  (ds.flatMap Descriptor.added).reverse.lookup key

structure AppConfig.PlainEnvelope (app : AppConfig) : Prop where
  bus : Plain app.eventBusOrDefault
  source : Plain app.eventSource

structure WellFormedPipeline (app : AppConfig) (ds : List Descriptor) : Prop where
  executable : ∃ d ∈ ds, d.isExecutable = true
  descriptors : ∀ (i : Nat) (d : Descriptor), ds[i]? = some d → d.WellFormed (storedBefore ds i)
  envelope : (∃ d ∈ ds, d.isEmit = true) → app.PlainEnvelope
  extra : ∀ key value, lastAdded ds key = some value → Plain key ∧ Valid false value

/-- A lone `list` needs both keys, and no other lone operation looks at its own. -/
def DbAccess.WellFormed (access : DbAccess) : Prop :=
  access.action = .list →
    ∃ pk sk, access.pk = some pk ∧ access.sk = some sk ∧ Valid false pk ∧ Valid false sk

def Resolver.WellFormed (app : AppConfig) : Resolver → Prop
  | .single (.db access) => access.WellFormed
  | .single _ => False
  | .pipeline ds => WellFormedPipeline app ds

theorem storedBefore_zero (ds : List Descriptor) : storedBefore ds 0 = false := rfl

theorem storedBefore_succ (d : Descriptor) (ds : List Descriptor) (i : Nat) :
    storedBefore (d :: ds) (i + 1) = (d.stores || storedBefore ds i) := rfl

theorem resolvedEntries_accepts {scope : Scope} {entries : List (String × String)} :
    (∃ rs, List.Forall₂ (ResolvedEntry scope) entries rs) ↔
      ∀ key value, (key, value) ∈ entries → Plain key ∧ Valid scope.offersResult value := by
  rw [exists_forall₂]
  constructor
  · intro h key value hmem
    obtain ⟨r, hr⟩ := h (key, value) hmem
    exact ⟨hr.plain_key, resolve_accepts.1 ⟨_, hr.resolve_eq⟩⟩
  · intro h entry hmem
    obtain ⟨hkey, hvalue⟩ := h entry.1 entry.2 hmem
    obtain ⟨e, he⟩ := resolve_accepts.2 hvalue
    exact ⟨(entry.1, e), hkey, rfl, he⟩

theorem guard_accepts {name pk sk : String} {stored : Bool} :
    (∃ s, Step.guard handles name pk sk (.pipeline stored) = .ok s) ↔
      Valid stored pk ∧ Valid stored sk := by
  have hvalue : ∀ value, (∃ e, resolve value (.pipeline stored) = .ok e) ↔ Valid stored value :=
    fun _ => resolve_accepts
  simp only [Step.guard_eq_ok, ← hvalue]
  constructor
  · rintro ⟨_, p, k, hp, hk, -⟩
    exact ⟨⟨p, hp⟩, k, hk⟩
  · rintro ⟨⟨p, hp⟩, k, hk⟩
    exact ⟨_, p, k, hp, hk, rfl⟩

theorem emit_accepts {name event : String} {data : FieldMap} {stored : Bool} :
    (∃ s, Step.emit handles name (app.envelope event data) (.pipeline stored) = .ok s) ↔
      (Descriptor.emit event data).WellFormed stored ∧ app.PlainEnvelope := by
  have hdata : (∃ detail, List.Forall₂ (ResolvedEntry (.pipeline stored)) data.entries detail) ↔
      ∀ key value, (key, value) ∈ data.entries → Plain key ∧ Valid stored value :=
    resolvedEntries_accepts
  rw [Descriptor.WellFormed, ← hdata]
  simp only [Step.emit_eq_ok]
  constructor
  · rintro ⟨_, hsource, hbus, hevent, detail, hdetail, -⟩
    exact ⟨⟨hevent, detail, hdetail⟩, hbus, hsource⟩
  · rintro ⟨⟨hevent, detail, hdetail⟩, hbus, hsource⟩
    exact ⟨_, hsource, hbus, hevent, detail, hdetail, rfl⟩

theorem wellFormed_cons {d : Descriptor} {rest : List Descriptor} {stored : Bool} :
    (∀ (i : Nat) (d' : Descriptor), (d :: rest)[i]? = some d' →
        d'.WellFormed (stored || storedBefore (d :: rest) i)) ↔
      d.WellFormed stored ∧ ∀ (i : Nat) (d' : Descriptor), rest[i]? = some d' →
        d'.WellFormed ((stored || d.stores) || storedBefore rest i) := by
  constructor
  · intro h
    constructor
    · have hhead := h 0 d rfl
      rwa [storedBefore_zero, Bool.or_false] at hhead
    · intro i d' hd'
      rw [Bool.or_assoc, ← storedBefore_succ]
      exact h (i + 1) d' hd'
  · rintro ⟨hhead, htail⟩ i d' hd'
    cases i with
    | zero =>
      cases hd'
      rwa [storedBefore_zero, Bool.or_false]
    | succ i =>
      rw [storedBefore_succ, ← Bool.or_assoc]
      exact htail i d' hd'

theorem consOk_accepts {ε α : Type} {x : Except ε α} {xs : Except ε (List α)} :
    (∃ as, (do let a ← x; return a :: (← xs)) = .ok as) ↔ (∃ a, x = .ok a) ∧ ∃ as, xs = .ok as := by
  cases x <;> cases xs <;> simp

theorem stepsFrom_accepts {n : Nat} {stored : Bool} {ds : List Descriptor} :
    (∃ steps, stepsFrom handles app operation field n stored ds = .ok steps) ↔
      (∀ (i : Nat) (d : Descriptor), ds[i]? = some d →
        d.WellFormed (stored || storedBefore ds i)) ∧
      ((∃ d ∈ ds, d.isEmit = true) → app.PlainEnvelope) := by
  -- Ordinals only go into names, so acceptance of the tail is the same at every ordinal.
  induction ds generalizing n stored with
  | nil => simp [stepsFrom]
  | cons d rest ih =>
    rw [wellFormed_cons, List.exists_mem_cons_iff]
    cases d with
    | add fields =>
      rw [stepsFrom_cons_of_none rfl, ih]
      simp [Descriptor.WellFormed, Descriptor.stores, Descriptor.isEmit]
    | guard pk sk =>
      rw [stepsFrom_cons_of_some rfl, consOk_accepts, guard_accepts, ih]
      simp [Descriptor.WellFormed, Descriptor.isEmit, and_assoc]
    | db access =>
      rw [stepsFrom_cons_of_some rfl, consOk_accepts, Step.data_eq, ih]
      simp [Descriptor.WellFormed, Descriptor.isEmit]
    | emit event data =>
      rw [stepsFrom_cons_of_some rfl, consOk_accepts, emit_accepts, ih]
      simp only [Descriptor.isEmit, true_or, true_implies]
      constructor
      · rintro ⟨⟨hemit, henvelope⟩, hrest, -⟩
        exact ⟨⟨hemit, hrest⟩, henvelope⟩
      · rintro ⟨⟨hemit, hrest⟩, henvelope⟩
        exact ⟨⟨hemit, henvelope⟩, hrest, fun _ => henvelope⟩

theorem mergedFields_eq (ds : List Descriptor) :
    mergedFields ds = .ofList (ds.flatMap Descriptor.added) := by
  suffices h : ∀ m : FieldMap,
      ds.foldl Descriptor.mergeInto m = m.insertMany (ds.flatMap Descriptor.added) from h .empty
  induction ds with
  | nil =>
    intro m
    rfl
  | cons d rest ih =>
    intro m
    rw [List.foldl_cons, ih, List.flatMap_cons, FieldMap.insertMany_append]
    cases d <;> rfl

theorem mem_mergedFields {ds : List Descriptor} {key value : String} :
    (key, value) ∈ (mergedFields ds).entries ↔ lastAdded ds key = some value := by
  rw [← FieldMap.get?_eq_some, mergedFields_eq, FieldMap.get?_ofList, lastAdded]

theorem pipeline_accepts {ds : List Descriptor} :
    (∃ f, CompilesTo handles app (operation, field, .pipeline ds) f) ↔
      WellFormedPipeline app ds := by
  have hextra : (∃ fs, List.Forall₂ (ResolvedEntry (.pipeline false)) (mergedFields ds).entries fs)
      ↔ ∀ key value, lastAdded ds key = some value → Plain key ∧ Valid false value := by
    simp only [← mem_mergedFields]
    exact resolvedEntries_accepts
  have hsteps : (∃ steps, stepsFrom handles app operation field 0 false ds = .ok steps) ↔
      (∀ (i : Nat) (d : Descriptor), ds[i]? = some d → d.WellFormed (storedBefore ds i)) ∧
      ((∃ d ∈ ds, d.isEmit = true) → app.PlainEnvelope) := stepsFrom_accepts
  simp only [compilesTo_pipeline]
  constructor
  · rintro ⟨_, hexec, steps, fields, hok, hfields, -⟩
    obtain ⟨hds, henvelope⟩ := hsteps.1 ⟨steps, hok⟩
    exact ⟨hexec, hds, henvelope, hextra.1 ⟨fields, hfields⟩⟩
  · intro h
    obtain ⟨steps, hok⟩ := hsteps.2 ⟨h.descriptors, h.envelope⟩
    obtain ⟨fields, hfields⟩ := hextra.2 h.extra
    exact ⟨_, h.executable, steps, fields, hok, hfields, rfl⟩

theorem directKey_accepts {access : DbAccess} {key : String} {value : Option String} :
    (∃ text, ResolverTemplates.directKey access key value = .ok text) ↔
      ∃ v, value = some v ∧ Valid false v := by
  have hvalue : ∀ v, (∃ e, resolve v .direct = .ok e) ↔ Valid false v := fun _ => resolve_accepts
  simp [ResolverTemplates.directKey_eq_ok, ← hvalue]

theorem directKeys_accepts {access : DbAccess} :
    (∃ pk sk, ResolverTemplates.directKeys access = .ok (pk, sk)) ↔ access.WellFormed := by
  obtain ⟨action, pk, sk⟩ := access
  cases action with
  | get => simp [ResolverTemplates.directKeys, DbAccess.WellFormed]
  | create => simp [ResolverTemplates.directKeys, DbAccess.WellFormed]
  | remove => simp [ResolverTemplates.directKeys, DbAccess.WellFormed]
  | list =>
    simp only [ResolverTemplates.directKeys_list, DbAccess.WellFormed, true_implies]
    constructor
    · rintro ⟨p, k, hp, hk⟩
      obtain ⟨pk, rfl, hpk⟩ := directKey_accepts.1 ⟨p, hp⟩
      obtain ⟨sk, rfl, hsk⟩ := directKey_accepts.1 ⟨k, hk⟩
      exact ⟨pk, sk, rfl, rfl, hpk, hsk⟩
    · rintro ⟨pk, sk, hp, hk, hpk, hsk⟩
      obtain ⟨p, hp⟩ := directKey_accepts.2 ⟨pk, hp, hpk⟩
      obtain ⟨k, hk⟩ := directKey_accepts.2 ⟨sk, hk, hsk⟩
      exact ⟨p, k, hp, hk⟩

theorem resolver_accepts {resolver : Resolver} :
    (∃ f, CompilesTo handles app (operation, field, resolver) f) ↔ resolver.WellFormed app := by
  cases resolver with
  | single d =>
    cases d with
    | add fields => simp [CompilesTo, compileField, Resolver.WellFormed]
    | guard pk sk => simp [CompilesTo, compileField, Resolver.WellFormed]
    | emit event data => simp [CompilesTo, compileField, Resolver.WellFormed]
    | db access =>
      rw [Resolver.WellFormed, ← directKeys_accepts]
      simp only [compilesTo_unit]
      constructor
      · rintro ⟨_, pk, sk, hkeys, -⟩
        exact ⟨pk, sk, hkeys⟩
      · rintro ⟨pk, sk, hkeys⟩
        exact ⟨_, pk, sk, hkeys, rfl⟩
  | pipeline ds => exact pipeline_accepts

/-- A definition compiles exactly when all of its resolvers are well-formed. -/
theorem compile_ok_iff_wellFormed {d : Definition} :
    (∃ api, (compile handles d).result = .ok api) ↔
      ∀ entry ∈ d.resolvers.fields, entry.2.2.WellFormed d.config := by
  simp only [compile_eq_ok]
  constructor
  · rintro ⟨_, fs, hfs, -⟩ entry hentry
    exact resolver_accepts.1 (exists_forall₂.1 ⟨fs, hfs⟩ entry hentry)
  · intro h
    obtain ⟨fs, hfs⟩ := exists_forall₂.2 fun entry hentry => resolver_accepts.2 (h entry hentry)
    exact ⟨_, fs, hfs, rfl⟩

end ResolverPipeline
