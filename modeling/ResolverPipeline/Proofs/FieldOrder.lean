import Mathlib.Data.List.Perm.Basic
import ResolverPipeline.Proofs.ObjectMembers

namespace ResolverPipeline

open Document

section Fields

theorem onceOf_bind_eq_ok {α σ : Type} {name : String} {seen : Option α} {read : Except Fault α}
    {set : Option α → σ} {s : σ} :
    (onceOf name seen read >>= fun a => .ok (set a)) = .ok s ↔
      seen = none ∧ ∃ a, read = .ok a ∧ set (some a) = s := by
  cases seen <;> cases read <;> simp [onceOf, Functor.map, Except.map]

theorem requireOf_eq_ok {α : Type} {name : String} {o : Option α} {a : α} :
    requireOf name o = .ok a ↔ o = some a := by
  cases o <;> simp [requireOf]

variable {σ : Type} {names : List String} {step : σ → String → Datum → Except Fault σ}
  {fields fields' : List (String × Datum)}

theorem namedFields_keyed (s : σ) :
    namedFields names step s (keyed fields) = fields.foldlM (fun s f => step s f.1 f.2) s := by
  induction fields generalizing s with
  | nil => rfl
  | cons f rest ih =>
    rw [List.foldlM_cons]
    change (step s f.1 f.2 >>= fun s => namedFields names step s (keyed rest)) = _
    simp only [ih]

/-- That fields of different names do not get in each other's way. -/
def Commutes (step : σ → String → Datum → Except Fault σ) : Prop :=
  ∀ ⦃a b : String⦄, a ≠ b → ∀ s v w r,
    (step s a v >>= (step · b w)) = .ok r → (step s b w >>= (step · a v)) = .ok r

theorem Commutes.namedFields_perm (hstep : Commutes step) (hperm : fields.Perm fields')
    (hnames : (fields.map Prod.fst).Nodup) {s r : σ}
    (h : namedFields names step s (keyed fields) = .ok r) :
    namedFields names step s (keyed fields') = .ok r := by
  rw [namedFields_keyed] at h ⊢
  induction hperm generalizing s with
  | nil => exact h
  | cons f _ ih =>
    rw [List.foldlM_cons, bind_eq_ok] at h ⊢
    obtain ⟨t, ht, h⟩ := h
    exact ⟨t, ht, ih (List.nodup_cons.1 hnames).2 h⟩
  | swap f g rest =>
    have hne : g.1 ≠ f.1 := by
      intro heq
      simp [heq] at hnames
    simp only [List.foldlM_cons, ← bind_assoc] at h ⊢
    rw [bind_eq_ok] at h ⊢
    obtain ⟨t, ht, h⟩ := h
    exact ⟨t, hstep hne s g.2 f.2 t ht, h⟩
  | trans hperm _ ih ih' => exact ih' ((hperm.map Prod.fst).nodup_iff.1 hnames) (ih hnames h)

theorem Commutes.bind_perm {α : Type} {f : σ → Except Fault α} (hstep : Commutes step)
    (hperm : fields.Perm fields') (hnames : (fields.map Prod.fst).Nodup) {s : σ} {a : α}
    (h : (namedFields names step s (keyed fields) >>= f) = .ok a) :
    (namedFields names step s (keyed fields') >>= f) = .ok a := by
  rw [bind_eq_ok] at h ⊢
  obtain ⟨r, hr, h⟩ := h
  exact ⟨r, hstep.namedFields_perm hperm hnames hr, h⟩

theorem namedFields_invariant {P : σ → Prop} {s r : σ} (hs : P s)
    (hstep : ∀ f ∈ fields, ∀ s s', P s → step s f.1 f.2 = .ok s' → P s')
    (h : namedFields names step s (keyed fields) = .ok r) : P r := by
  rw [namedFields_keyed] at h
  induction fields generalizing s with
  | nil =>
    cases h
    exact hs
  | cons f rest ih =>
    rw [List.forall_mem_cons] at hstep
    rw [List.foldlM_cons, bind_eq_ok] at h
    obtain ⟨t, ht, h⟩ := h
    exact ih (hstep.1 s t hs ht) hstep.2 h

end Fields

namespace Descriptor

theorem guardField_eq_ok {s s' : GuardParts} {name : String} {v : Datum} :
    guardField s name v = .ok s' ↔
      (name = "pk" ∧ s.pk = none ∧ ∃ pk, v.raw = .ok pk ∧ { s with pk := some pk } = s') ∨
      (name = "sk" ∧ s.sk = none ∧ ∃ sk, v.raw = .ok sk ∧ { s with sk := some sk } = s') ∨
      (name ≠ "pk" ∧ name ≠ "sk" ∧ s = s') := by
  unfold guardField
  split <;> simp_all [onceOf_bind_eq_ok]

theorem dbField_eq_ok {s s' : DbParts} {name : String} {v : Datum} :
    dbField s name v = .ok s' ↔
      (name = "action" ∧ s.action = none ∧
        ∃ action, DbAction.ofDatum v = .ok action ∧ { s with action := some action } = s') ∨
      (name = "pk" ∧ s.pk = none ∧ ∃ pk, v.raw? = .ok pk ∧ { s with pk := some pk } = s') ∨
      (name = "sk" ∧ s.sk = none ∧ ∃ sk, v.raw? = .ok sk ∧ { s with sk := some sk } = s') ∨
      (name ≠ "action" ∧ name ≠ "pk" ∧ name ≠ "sk" ∧ s = s') := by
  unfold dbField
  split <;> simp_all [onceOf_bind_eq_ok]

theorem emitField_eq_ok {s s' : EmitParts} {name : String} {v : Datum} :
    emitField s name v = .ok s' ↔
      (name = "event" ∧ s.event = none ∧
        ∃ event, v.text "a string" = .ok event ∧ { s with event := some event } = s') ∨
      (name = "data" ∧ s.data = none ∧ ∃ data, v.fieldMap = .ok data ∧ { s with data := some data } = s') ∨
      (name ≠ "event" ∧ name ≠ "data" ∧ s = s') := by
  unfold emitField
  split <;> simp_all [onceOf_bind_eq_ok]

theorem guardField_commutes : Commutes guardField := by
  intro a b hab s v w r h
  rw [bind_eq_ok] at h ⊢
  obtain ⟨t, ht, hr⟩ := h
  rw [guardField_eq_ok] at ht hr
  rcases ht with ⟨rfl, hs, pk, hpk, rfl⟩ | ⟨rfl, hs, sk, hsk, rfl⟩ | ⟨ha, ha', rfl⟩ <;>
    rcases hr with ⟨rfl, ht, pk, hpk, rfl⟩ | ⟨rfl, ht, sk, hsk, rfl⟩ | ⟨hb, hb', rfl⟩ <;>
      simp_all [guardField_eq_ok]

theorem emitField_commutes : Commutes emitField := by
  intro a b hab s v w r h
  rw [bind_eq_ok] at h ⊢
  obtain ⟨t, ht, hr⟩ := h
  rw [emitField_eq_ok] at ht hr
  rcases ht with ⟨rfl, hs, x, hx, rfl⟩ | ⟨rfl, hs, x, hx, rfl⟩ | ⟨ha, ha', rfl⟩ <;>
    rcases hr with ⟨rfl, ht, y, hy, rfl⟩ | ⟨rfl, ht, y, hy, rfl⟩ | ⟨hb, hb', rfl⟩ <;>
      simp_all [emitField_eq_ok]

theorem dbField_commutes : Commutes dbField := by
  intro a b hab s v w r h
  rw [bind_eq_ok] at h ⊢
  obtain ⟨t, ht, hr⟩ := h
  rw [dbField_eq_ok] at ht hr
  rcases ht with ⟨rfl, hs, x, hx, rfl⟩ | ⟨rfl, hs, x, hx, rfl⟩ | ⟨rfl, hs, x, hx, rfl⟩ |
      ⟨ha, ha', ha'', rfl⟩ <;>
    rcases hr with ⟨rfl, ht, y, hy, rfl⟩ | ⟨rfl, ht, y, hy, rfl⟩ | ⟨rfl, ht, y, hy, rfl⟩ |
        ⟨hb, hb', hb'', rfl⟩ <;>
      simp_all [dbField_eq_ok]

structure RawField (f : String × Datum) (p : String × String) : Prop where
  name : f.1 = p.1
  value : f.2.raw = .ok p.2

theorem raw_eq_ok {v : Datum} {s : String} : v.raw = .ok s ↔ v.found.asText? = some s := by
  unfold Datum.raw rawText
  cases v.found.asText? <;> simp

theorem rawPairs_keyed {fields : List (String × Datum)} {pairs : List (String × String)} :
    rawPairs (keyed fields) = .ok pairs ↔ List.Forall₂ RawField fields pairs := by
  induction fields generalizing pairs with
  | nil => simp [keyed, rawPairs, eq_comm]
  | cons f rest ih =>
    have hcons : rawPairs (keyed (f :: rest)) = .ok pairs ↔
        ∃ value, f.2.raw = .ok value ∧ ∃ others, rawPairs (keyed rest) = .ok others ∧
          (f.1, value) :: others = pairs := by
      simp [keyed, rawPairs, Datum.text, bind_eq_ok]
    simp only [hcons, ih]
    constructor
    · rintro ⟨value, hvalue, others, hothers, rfl⟩
      exact .cons ⟨rfl, hvalue⟩ hothers
    · intro h
      cases h with
      | @cons _ p _ others hf hothers => exact ⟨p.2, hf.value, others, hothers, by rw [hf.name]⟩

theorem checkKeys_keyed (fields : List (String × Datum)) : checkKeys (keyed fields) = .ok () := by
  induction fields with
  | nil => rfl
  | cons f rest ih => exact ih

theorem readAdd_eq_ok {fields : List (String × Datum)} {d : Descriptor} :
    ofContent "add" (.members (keyed fields)) = .ok d ↔
      ∃ pairs, List.Forall₂ RawField fields pairs ∧ .add (.ofList pairs) = d := by
  simp [ofContent, readAdd, checkKeys_keyed, bind_eq_ok, rawPairs_keyed]

theorem ofContent_tag {tag : String} {es : List (Datum × Datum)} {d : Descriptor}
    (h : ofContent tag (.members es) = .ok d) : d.tag = tag := by
  unfold ofContent at h
  split at h
  · simp only [readAdd, bind_eq_ok] at h
    obtain ⟨_, _, pairs, _, h⟩ := h
    cases h
    rfl
  · simp only [readGuard, bind_eq_ok] at h
    obtain ⟨_, _, pk, _, sk, _, h⟩ := h
    cases h
    rfl
  · simp only [readDb, bind_eq_ok] at h
    obtain ⟨_, _, action, _, h⟩ := h
    cases h
    rfl
  · simp only [readEmit, bind_eq_ok] at h
    obtain ⟨_, _, event, _, h⟩ := h
    cases h
    rfl
  · cases h

/-- The order of the fields decides neither whether a descriptor is made of them nor, unless it keeps
them all, which one. -/
theorem ofContent_perm {tag : String} {fields fields' : List (String × Datum)}
    (hperm : fields.Perm fields') (hnames : (fields.map Prod.fst).Nodup) {d : Descriptor}
    (h : ofContent tag (.members (keyed fields)) = .ok d) :
    ∃ d', ofContent tag (.members (keyed fields')) = .ok d' ∧ (d.isExecutable = true → d' = d) := by
  have htag := Descriptor.tag_mem_tags d
  rw [ofContent_tag h] at htag
  simp only [tags, List.mem_cons, List.not_mem_nil, or_false] at htag
  rcases htag with rfl | rfl | rfl | rfl
  -- An `add` keeps every field, so its own order is that of the fields; the others pick fields by name.
  · obtain ⟨pairs, hpairs, rfl⟩ := readAdd_eq_ok.1 h
    have hraw : ∀ f ∈ fields, ∃ p, RawField f p := exists_forall₂.1 ⟨pairs, hpairs⟩
    obtain ⟨pairs', hpairs'⟩ := exists_forall₂.2 fun f hf => hraw f (hperm.mem_iff.2 hf)
    exact ⟨_, readAdd_eq_ok.2 ⟨pairs', hpairs', rfl⟩, fun hadd => absurd hadd Bool.false_ne_true⟩
  · exact ⟨d, guardField_commutes.bind_perm hperm hnames h, fun _ => rfl⟩
  · exact ⟨d, dbField_commutes.bind_perm hperm hnames h, fun _ => rfl⟩
  · exact ⟨d, emitField_commutes.bind_perm hperm hnames h, fun _ => rfl⟩

theorem action_of_ofContent {fields : List (String × Datum)} {access : DbAccess}
    (h : ofContent "db" (.members (keyed fields)) = .ok (.db access)) :
    ∃ v, ("action", v) ∈ fields ∧ DbAction.ofDatum v = .ok access.action := by
  change readDb (.members (keyed fields)) = _ at h
  simp only [readDb, bind_eq_ok, requireOf_eq_ok] at h
  obtain ⟨s, hs, action, haction, h⟩ := h
  cases h
  refine namedFields_invariant
    (P := fun s : DbParts =>
      ∀ action ∈ s.action, ∃ v, ("action", v) ∈ fields ∧ DbAction.ofDatum v = .ok action)
    (by simp) ?_ hs action haction
  intro f hf s s' hkept hstep
  rcases dbField_eq_ok.1 hstep with
    ⟨hname, -, read, hread, rfl⟩ | ⟨-, -, -, -, rfl⟩ | ⟨-, -, -, -, rfl⟩ | ⟨-, -, -, rfl⟩
  · intro action haction
    obtain rfl := Option.some.inj haction
    exact ⟨f.2, hname ▸ hf, hread⟩
  all_goals exact hkept

end Descriptor

end ResolverPipeline
