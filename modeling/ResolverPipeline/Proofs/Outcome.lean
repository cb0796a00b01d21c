import Mathlib.Data.List.Forall2
import ResolverPipeline.FieldError
import ResolverPipeline.Trace

namespace ResolverPipeline

variable {ε ε' α β γ : Type}

@[simp] theorem except_pure (a : α) : (pure a : Except ε α) = .ok a := rfl

@[simp] theorem except_ok_bind (a : α) (f : α → Except ε β) : (Except.ok a >>= f) = f a := rfl

@[simp] theorem except_error_bind (e : ε) (f : α → Except ε β) :
    (Except.error e >>= f) = .error e := rfl

theorem bind_eq_ok {x : Except ε α} {f : α → Except ε β} {b : β} :
    (x >>= f) = .ok b ↔ ∃ a, x = .ok a ∧ f a = .ok b := by
  cases x <;> simp

theorem bind_eq_error {x : Except ε α} {f : α → Except ε β} {e : ε} :
    (x >>= f) = .error e ↔ x = .error e ∨ ∃ a, x = .ok a ∧ f a = .error e := by
  cases x <;> simp

theorem map_eq_ok {x : Except ε α} {f : α → β} {b : β} :
    x.map f = .ok b ↔ ∃ a, x = .ok a ∧ f a = b := by
  cases x <;> simp [Except.map]

theorem exists_ok_of_isOk {x : Except ε α} (h : x.isOk = true) : ∃ a, x = .ok a := by
  cases x with
  | ok a => exact ⟨a, rfl⟩
  | error e => cases h

@[simp] theorem mapError_ok (f : ε → ε') (a : α) : (Except.ok a).mapError f = .ok a := rfl

@[simp] theorem mapError_error (f : ε → ε') (e : ε) :
    (Except.error e : Except ε α).mapError f = .error (f e) := rfl

theorem mapError_eq_ok {x : Except ε α} {f : ε → ε'} {a : α} :
    x.mapError f = .ok a ↔ x = .ok a := by
  cases x <;> simp

theorem mapError_eq_error {x : Except ε α} {f : ε → ε'} {e' : ε'} :
    x.mapError f = .error e' ↔ ∃ e, x = .error e ∧ f e = e' := by
  cases x <;> simp

theorem locate_eq_ok {location : String} {x : Except ReferenceError α} {a : α} :
    locate location x = .ok a ↔ x = .ok a := mapError_eq_ok

theorem locate_eq_error {location : String} {x : Except ReferenceError α} {e : FieldError} :
    locate location x = .error e ↔ ∃ source, x = .error source ∧ .reference location source = e :=
  mapError_eq_error

theorem exists_mem_of_forall₂ {R : α → β → Prop} {as : List α} {bs : List β} {b : β}
    (h : List.Forall₂ R as bs) (hb : b ∈ bs) : ∃ a ∈ as, R a b := by
  induction h with
  | nil => simp at hb
  | @cons a b' as bs hab _ ih =>
    obtain rfl | hb := List.mem_cons.1 hb
    · exact ⟨a, List.mem_cons_self, hab⟩
    · obtain ⟨a', ha', hab'⟩ := ih hb
      exact ⟨a', List.mem_cons_of_mem a ha', hab'⟩

theorem exists_forall₂ {R : α → β → Prop} {as : List α} :
    (∃ bs, List.Forall₂ R as bs) ↔ ∀ a ∈ as, ∃ b, R a b := by
  induction as with
  | nil => simp
  | cons a rest ih =>
    rw [List.forall_mem_cons, ← ih]
    constructor
    · rintro ⟨_, h⟩
      cases h with
      | @cons _ b _ bs hab hrest => exact ⟨⟨b, hab⟩, bs, hrest⟩
    · rintro ⟨⟨b, hab⟩, bs, hrest⟩
      exact ⟨b :: bs, .cons hab hrest⟩

theorem forall_mem_iff_of_forall₂ {R : α → β → Prop} {P : α → Prop} {Q : β → Prop}
    (hR : ∀ {a b}, R a b → (P a ↔ Q b)) {as : List α} {bs : List β} (h : List.Forall₂ R as bs) :
    (∀ a ∈ as, P a) ↔ ∀ b ∈ bs, Q b := by
  induction h with
  | nil => simp
  | cons hab _ ih => rw [List.forall_mem_cons, List.forall_mem_cons, hR hab, ih]

theorem forall₂_square {α' β' : Type} {R : α → β → Prop} {R' : α' → β' → Prop} {S : α → α' → Prop}
    {T : β → β' → Prop} (hT : ∀ {a a' b b'}, R a b → R' a' b' → S a a' → T b b')
    {as : List α} {as' : List α'} {bs : List β} {bs' : List β'} (h : List.Forall₂ R as bs)
    (h' : List.Forall₂ R' as' bs') (hS : List.Forall₂ S as as') : List.Forall₂ T bs bs' := by
  induction hS generalizing bs bs' with
  | nil =>
    cases h
    cases h'
    exact .nil
  | cons ha _ ih =>
    cases h with
    | cons hb hrest =>
      cases h' with
      | cons hb' hrest' => exact .cons (hT hb hb' ha) (ih hrest hrest')

theorem map_eq_of_forall₂ {f : α → β} {as as' : List α}
    (h : List.Forall₂ (fun a a' => f a = f a') as as') : as.map f = as'.map f := by
  induction h with
  | nil => rfl
  | cons hf _ ih => rw [List.map_cons, List.map_cons, hf, ih]

namespace Traced

theorem map_id (x : Traced ε α) : id <$> x = x := by
  obtain ⟨log, r⟩ := x
  cases r with
  | ok a => exact congrArg (Traced.mk · (.ok a)) (List.append_nil log)
  | error e => rfl

theorem bind_bind (x : Traced ε α) (f : α → Traced ε β) (g : β → Traced ε γ) :
    x >>= f >>= g = x >>= fun a => f a >>= g := by
  obtain ⟨log, r⟩ := x
  cases r with
  | error e => rfl
  | ok a =>
    rw [ok_bind, ok_bind]
    cases h : f a with
    | mk log' r' =>
      cases r' with
      | ok b => simp
      | error e => rfl

instance : LawfulMonad (Traced ε) := LawfulMonad.mk' _ map_id (fun _ _ => rfl) bind_bind

@[simp] theorem result_bind (x : Traced ε α) (f : α → Traced ε β) :
    (x >>= f).result = x.result >>= fun a => (f a).result := by
  obtain ⟨log, r⟩ := x
  cases r <;> rfl

@[simp] theorem result_ofExcept (r : Except ε α) : (ofExcept r).result = r := rfl

@[simp] theorem result_tell (e : Event) : (tell e : Traced ε Unit).result = .ok () := rfl

@[simp] theorem result_mapError (f : ε → ε') (x : Traced ε α) :
    (x.mapError f).result = x.result.mapError f := rfl

end Traced

end ResolverPipeline
