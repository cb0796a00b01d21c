import ResolverPipeline.Proofs.Compilation
import ResolverPipeline.Proofs.Occurrence

/-!
What templates say of the stash.  Texts of a definition are plain, so a path into the stash gets into a
template by way of a reference only, and references take no path but those that their scope offers.
-/

namespace ResolverPipeline

open Template

variable {handles : Handles} {app : AppConfig} {operation : Operation} {field : String}

theorem byParts_avoids (word : String) : ByParts (Avoids word) where
  empty := rfl
  append := Avoids.append

theorem BaseText.byParts {P : String → Prop} (hP : ByParts P) (hplain : ∀ {s}, Plain s → P s)
    {scope : Scope} (hinput : P scope.inputBase)
    (hresult : scope = .pipeline true → P Slot.dbResult.path) (hquote : P "\"")
    {value text : String} {kind : ReferenceKind} (h : BaseText scope value kind text) : P text := by
  have hdot : P "." := hplain (by decide)
  cases h with
  | input hne hp => exact hP.append (hP.append hinput hdot) (hplain hp)
  | result hscope hne hp => exact hP.append (hP.append (hresult hscope) hdot) (hplain hp)
  | literal hp => exact hP.append (hP.append hquote (hplain hp)) hquote

def stashless : List Template := [
  guardRequest, getItemRequest, queryRequest, putItemRequest, deleteItemRequest, resultResponse,
  emitRequest]

theorem storeTemplate_stashless (action : DbAction) :
    (Step.storeTemplate action).1 ∈ stashless := by
  cases action <;> simp [Step.storeTemplate, stashless]

theorem fixed_avoids_stash {t : Template} (ht : t ∈ stashless) :
    ∀ f ∈ t.fixed, Avoids "$ctx.stash" f := by
  simp only [stashless, List.mem_cons, List.not_mem_nil, or_false] at ht
  obtain rfl | rfl | rfl | rfl | rfl | rfl | rfl := ht <;>
    simp only [guardRequest, getItemRequest, queryRequest, putItemRequest, deleteItemRequest,
      keyedRequest, resultResponse, emitRequest, fixed, Segment.fixed, Inline.fixed, text, gap,
      List.cons_append, List.nil_append, List.flatMap_cons, List.flatMap_nil, List.map_cons,
      List.map_nil, List.forall_mem_cons]
  all_goals
    repeat' first
      | apply And.intro
      | with_reducible apply Avoids.append
      | exact .of_chars (by decide)
      | simp

/-- A path into the stash that no reference of the scope takes. -/
structure Unread (word : String) (scope : Scope) : Prop where
  path : "$ctx.stash".toList <+: word.toList
  input : Avoids word scope.inputBase
  result : scope = .pipeline true → Avoids word Slot.dbResult.path

theorem unread_stash : Unread "$ctx.stash" .direct where
  path := List.prefix_refl _
  input := by decide
  result := by simp

theorem unread_eventResult (stored : Bool) :
    Unread "$ctx.stash.eventresult" (.pipeline stored) where
  path := by decide
  input := by cases stored <;> decide
  result _ := by decide

theorem unread_dbResult : Unread "$ctx.stash.dbresult" (.pipeline false) where
  path := by decide
  input := by decide
  result := by simp

namespace Unread

variable {word : String} {scope : Scope}

theorem avoids (h : Unread word scope) {text : String} (ht : Avoids "$ctx.stash" text) :
    Avoids word text :=
  ht.longer_word h.path

theorem avoids_fixed (h : Unread word scope) {t : Template} (ht : t ∈ stashless) :
    ∀ f ∈ t.fixed, Avoids word f := by
  intro f hf
  exact h.avoids (fixed_avoids_stash ht f hf)

theorem avoids_plain (h : Unread word scope) {text : String} (ht : Plain text) :
    Avoids word text := by
  apply ht.avoids_marker.longer_word
  apply List.IsPrefix.trans _ h.path
  decide

theorem avoids_baseText (h : Unread word scope) {value text : String} {kind : ReferenceKind}
    (ht : BaseText scope value kind text) : Avoids word text :=
  ht.byParts (byParts_avoids word) (h.avoids_plain ·) h.input h.result
    (h.avoids (.of_chars (by decide)))

theorem avoids_resolved (h : Unread word scope) {value : String} {e : Expression}
    (he : resolve value scope = .ok e) : Avoids word e.text := by
  obtain ⟨kind, base, hbase, rfl⟩ := resolve_eq_ok.1 he
  have htext : Avoids word base := h.avoids_baseText hbase
  simp only [freshText]
  split
  · have hopen : Avoids word "$util.str.toReplace(" := h.avoids (.of_chars (by decide))
    have htoken : Avoids word ", \"" := h.avoids (.of_chars (by decide))
    have hid : Avoids word idToken := h.avoids (.of_chars (by decide))
    have hclose : Avoids word "\", $util.autoId())" := h.avoids (.of_chars (by decide))
    exact (((hopen.append htext).append htoken).append hid).append hclose
  · exact htext

theorem avoids_entries (h : Unread word scope) {entries : List (String × String)}
    {rs : List (String × Expression)} (hrs : List.Forall₂ (ResolvedEntry scope) entries rs) :
    ∀ r ∈ rs, Avoids word r.1 ∧ Avoids word r.2.text := by
  intro r hr
  obtain ⟨entry, -, hentry⟩ := exists_mem_of_forall₂ hrs hr
  exact ⟨h.avoids_plain hentry.plain, h.avoids_resolved hentry.resolve_eq⟩

theorem avoids_guardOf (h : Unread word scope) {name pk sk : String} {p k : Expression}
    (hp : resolve pk scope = .ok p) (hk : resolve sk scope = .ok k) :
    Avoids word (Step.guardOf handles name p k scope).requestTemplate := by
  apply textIn_byParts (byParts_avoids word)
  · exact h.avoids_fixed (by simp [stashless])
  · exact guardRequest_filledBy (h.avoids_resolved hp) (h.avoids_resolved hk)

theorem avoids_storeRequest (h : Unread word scope) {pk sk item : String} (hpk : Avoids word pk)
    (hsk : Avoids word sk) (hitem : Avoids word item) (action : DbAction) :
    Avoids word (Step.storeRequest pk sk item action) := by
  apply textIn_byParts (byParts_avoids word)
  · exact h.avoids_fixed (storeTemplate_stashless action)
  · exact storeTemplate_filledBy hpk hsk hitem action

theorem avoids_emitOf (h : Unread word scope) {name source bus event : String}
    {entries : List (String × String)} {detail : List (String × Expression)}
    (hdetail : List.Forall₂ (ResolvedEntry scope) entries detail) (hsource : Plain source)
    (hbus : Plain bus) (hevent : Plain event) :
    Avoids word (Step.emitOf handles name detail source bus event scope).requestTemplate := by
  apply textIn_byParts (byParts_avoids word)
  · exact h.avoids_fixed (by simp [stashless])
  · exact emitRequest_filledBy (h.avoids_entries hdetail) (h.avoids_plain hsource)
      (h.avoids_plain hbus) (h.avoids_plain hevent)

theorem avoids_request {stored : Bool} (h : Unread word (.pipeline stored)) {d : Descriptor}
    {name : StepKind → String} {s : Step} (hs : d.Builds handles app name (.pipeline stored) s) :
    Avoids word s.requestTemplate := by
  cases hs with
  | guard hp hk => exact h.avoids_guardOf hp hk
  | db access =>
    have hpk : Avoids word ".pk" := h.avoids (.of_chars (by decide))
    have hsk : Avoids word ".sk" := h.avoids (.of_chars (by decide))
    exact h.avoids_storeRequest (h.input.append hpk) (h.input.append hsk) h.input access.action
  | emit hsource hbus hevent hdetail => exact h.avoids_emitOf hdetail hsource hbus hevent

theorem avoids_pipelineOf (h : Unread word (.pipeline false))
    (hfixed : ∀ f ∈ pipelineRequest.fixed, Avoids word f) {entries : List (String × String)}
    {fields : List (String × Expression)}
    (hfields : List.Forall₂ (ResolvedEntry (.pipeline false)) entries fields) :
    Avoids word (ResolverTemplates.pipelineOf operation fields).request := by
  have hseed : Avoids "$ctx.stash" (ResolverTemplates.seed operation) := by
    cases operation <;> decide
  apply textIn_byParts (byParts_avoids word) hfixed
  exact pipelineRequest_filledBy (h.avoids hseed) (h.avoids_entries hfields)

end Unread

theorem directKey_avoids_stash {access : DbAccess} {key text : String} {value : Option String}
    (h : ResolverTemplates.directKey access key value = .ok text) : Avoids "$ctx.stash" text := by
  obtain ⟨v, e, -, he, rfl⟩ := ResolverTemplates.directKey_eq_ok.1 h
  exact unread_stash.avoids_resolved he

theorem directKeys_avoid_stash {access : DbAccess} {pk sk : String}
    (h : ResolverTemplates.directKeys access = .ok (pk, sk)) :
    Avoids "$ctx.stash" pk ∧ Avoids "$ctx.stash" sk := by
  obtain ⟨action, pk', sk'⟩ := access
  cases action with
  | get =>
    cases h
    decide
  | create =>
    cases h
    decide
  | remove =>
    cases h
    decide
  | list =>
    obtain ⟨hpk, hsk⟩ := ResolverTemplates.directKeys_list.1 h
    exact ⟨directKey_avoids_stash hpk, directKey_avoids_stash hsk⟩

theorem unitOf_avoids_stash {action : DbAction} {pk sk : String} (hpk : Avoids "$ctx.stash" pk)
    (hsk : Avoids "$ctx.stash" sk) :
    Avoids "$ctx.stash" (ResolverTemplates.unitOf action pk sk).request ∧
      Avoids "$ctx.stash" (ResolverTemplates.unitOf action pk sk).response := by
  constructor
  · exact unread_stash.avoids_storeRequest hpk hsk (by decide) action
  · have hvalue : Avoids "$ctx.stash" (Step.storeTemplate action).2 := by
      cases action <;> decide
    apply textIn_byParts (byParts_avoids _) (fixed_avoids_stash (by simp [stashless]))
    exact resultResponse_filledBy hvalue

theorem storeResponse_puts (action : DbAction) :
    Contains (Step.storeResponse action) "$ctx.stash.put(\"dbresult\", " := by
  have hput : Contains ("$util.qr($ctx.stash.put(\"" ++ Slot.dbResult.key ++ "\", ")
      "$ctx.stash.put(\"dbresult\", " := by
    decide
  simp only [Step.storeResponse, stashResultResponse, textIn, segmentsText, text, gap,
    Segment.textIn, Inline.textIn, ← String.append_assoc]
  -- Only the slot's name in its quotes matters, and not what stands behind.
  iterate 6 apply Contains.append_left
  exact hput

theorem Descriptor.Builds.puts {d : Descriptor} {name : StepKind → String} {scope : Scope} {s : Step}
    (h : d.Builds handles app name scope s) (hd : d.stores = true) :
    Contains s.responseTemplate "$ctx.stash.put(\"dbresult\", " := by
  cases h with
  | guard => cases hd
  | db access => exact storeResponse_puts access.action
  | emit => cases hd

theorem stepsFrom_eventResult {n : Nat} {stored : Bool} {ds : List Descriptor} {steps : List Step}
    (h : stepsFrom handles app operation field n stored ds = .ok steps) :
    ∀ s ∈ steps, Avoids "$ctx.stash.eventresult" s.requestTemplate := by
  induction ds generalizing n stored steps with
  | nil =>
    cases h
    intro s hs
    cases hs
  | cons d rest ih =>
    obtain ⟨-, htail⟩ | ⟨step, tail, hd, htail, rfl⟩ := stepsFrom_cons_ok h
    · exact ih htail
    · rw [List.forall_mem_cons]
      exact ⟨(unread_eventResult stored).avoids_request hd, ih htail⟩

theorem stepsFrom_dbResult {n : Nat} {stored : Bool} {ds : List Descriptor} {steps : List Step}
    (h : stepsFrom handles app operation field n stored ds = .ok steps) :
    ∀ k, (hk : k < steps.length) →
      Contains steps[k].requestTemplate "$ctx.stash.dbresult" →
      stored = true ∨ ∃ s ∈ steps.take k,
        Contains s.responseTemplate "$ctx.stash.put(\"dbresult\", " := by
  -- Behind a store operation the tail has its result, and the head is the step that put it there.
  induction ds generalizing n stored steps with
  | nil =>
    cases h
    intro k hk
    exact absurd hk (Nat.not_lt_zero k)
  | cons d rest ih =>
    obtain ⟨-, htail⟩ | ⟨step, tail, hd, htail, rfl⟩ := stepsFrom_cons_ok h
    · exact ih htail
    · intro k hk hread
      cases k with
      | zero =>
        cases stored with
        | true => exact .inl rfl
        | false =>
          have havoids : Avoids "$ctx.stash.dbresult" step.requestTemplate :=
            unread_dbResult.avoids_request hd
          exact absurd hread (havoids.not_contains (by decide))
      | succ k =>
        obtain hstored | ⟨s, hs, hput⟩ := ih htail k (Nat.lt_of_succ_lt_succ hk) hread
        · obtain hstored | hstores := Bool.or_eq_true_iff.1 hstored
          · exact .inl hstored
          · exact .inr ⟨step, List.mem_cons_self, hd.puts hstores⟩
        · exact .inr ⟨s, List.mem_cons_of_mem step hs, hput⟩

/-- What the texts of a pipeline's field do with the stash: the resolver seeds the input and reads
nothing else, a step reads the result only behind one that stores it, and no step reads what the event
bus answered. -/
structure Pipeline.StashDiscipline (p : Pipeline) (request : String) : Prop where
  seeds : "$util.qr($ctx.stash.put(\"input\", ".toList <+: request.toList
  request_dbResult : ¬ Contains request "$ctx.stash.dbresult"
  request_eventResult : ¬ Contains request "$ctx.stash.eventresult"
  reads : ∀ k, (hk : k < p.steps.length) →
    Contains p.steps[k].requestTemplate "$ctx.stash.dbresult" →
    ∃ j, ∃ hj : j < k, Contains p.steps[j].responseTemplate "$ctx.stash.put(\"dbresult\", "
  steps_eventResult : ∀ s ∈ p.steps, ¬ Contains s.requestTemplate "$ctx.stash.eventresult"

theorem pipelineOf_seeds (fields : List (String × Expression)) :
    "$util.qr($ctx.stash.put(\"input\", ".toList <+:
      (ResolverTemplates.pipelineOf operation fields).request.toList := by
  simp only [ResolverTemplates.pipelineOf, pipelineRequest, textIn, segmentsText, text,
    Segment.textIn, Inline.textIn, String.toList_append]
  exact List.prefix_append _ _

theorem ofSteps_stashDiscipline {ds : List Descriptor} {steps : List Step}
    {entries : List (String × String)} {fields : List (String × Expression)} {extra : FieldMap}
    (hsteps : stepsFrom handles app operation field 0 false ds = .ok steps)
    (hfields : List.Forall₂ (ResolvedEntry (.pipeline false)) entries fields) :
    (Pipeline.ofSteps operation field steps extra).StashDiscipline
      (ResolverTemplates.pipelineOf operation fields).request where
  seeds := pipelineOf_seeds fields
  request_dbResult := by
    have h : Avoids "$ctx.stash.dbresult" (ResolverTemplates.pipelineOf operation fields).request :=
      unread_dbResult.avoids_pipelineOf (by decide) hfields
    exact h.not_contains (by decide)
  request_eventResult := by
    have h : Avoids "$ctx.stash.eventresult"
        (ResolverTemplates.pipelineOf operation fields).request :=
      (unread_eventResult false).avoids_pipelineOf (by decide) hfields
    exact h.not_contains (by decide)
  reads := by
    intro k hk hread
    obtain h | ⟨s, hs, hput⟩ := stepsFrom_dbResult hsteps k hk hread
    · cases h
    · obtain ⟨j, hj, rfl⟩ := List.mem_take_iff_getElem.1 hs
      exact ⟨j, (Nat.lt_min.1 hj).1, hput⟩
  steps_eventResult := by
    intro s hs
    exact (stepsFrom_eventResult hsteps s hs).not_contains (by decide)

structure CompiledField.StashDiscipline (f : CompiledField) : Prop where
  unit : ∀ dataSource, f.resolver = .unit dataSource →
    ¬ Contains f.requestTemplate "$ctx.stash" ∧ ¬ Contains f.responseTemplate "$ctx.stash"
  pipeline : ∀ p, f.resolver = .pipeline p → p.StashDiscipline f.requestTemplate

theorem CompilesTo.stashDiscipline {entry : Operation × String × Resolver} {f : CompiledField}
    (h : CompilesTo handles app entry f) : f.StashDiscipline := by
  obtain ⟨access, pk, sk, hkeys, rfl⟩ | ⟨ds, steps, fields, hsteps, hfields, rfl⟩ := h.cases
  · obtain ⟨hpk, hsk⟩ := directKeys_avoid_stash hkeys
    obtain ⟨hrequest, hresponse⟩ := unitOf_avoids_stash hpk hsk
    constructor
    · intro _ _
      exact ⟨hrequest.not_contains (by decide), hresponse.not_contains (by decide)⟩
    · intro p hp
      cases hp
  · constructor
    · intro dataSource hunit
      cases hunit
    · intro p hp
      cases hp
      exact ofSteps_stashDiscipline hsteps hfields

/-- No text of a definition brings a path into the stash where the compiled templates have none, and the
paths that they have follow the order in which the stash is written. -/
theorem compile_stashDiscipline {d : Definition} {api : Api}
    (h : (compile handles d).result = .ok api) : ∀ f ∈ api.fields, f.StashDiscipline := by
  obtain ⟨fs, hfs, rfl⟩ := compile_eq_ok.1 h
  intro f hf
  obtain ⟨entry, -, hentry⟩ := exists_mem_of_forall₂ hfs hf
  exact hentry.stashDiscipline

def lookalikePaths : Definition where
  schema := ""
  resolvers := {
    query := .ofList [
      ("notes", .single (.db ⟨.list, some "$ctx.stash.dbresult", some "ctx.stash"⟩))]
    mutation := .ofList [
      ("share", .pipeline [
        .add (.ofList [("ctx.stash.eventresult", "$ctx.stash.dbresult")]),
        .guard "$owner" "ctx.stash.dbresult",
        .db ⟨.create, none, none⟩,
        .emit "ctx.stash.eventresult" (.ofList [("id", "#sk")])])] }
  config := { name := "notes" }

theorem lookalikePaths_stashDiscipline :
    ∃ api, (compile {} lookalikePaths).result = .ok api ∧
      api.steps.map Step.reads = [[.input], [.input], [.dbResult]] ∧
      ∀ f ∈ api.fields, f.StashDiscipline := by
  have hreads : (compile {} lookalikePaths).result.map (fun api => api.steps.map Step.reads) =
      .ok [[.input], [.input], [.dbResult]] := by
    decide +kernel
  obtain ⟨api, h, hapi⟩ := map_eq_ok.1 hreads
  exact ⟨api, h, hapi, compile_stashDiscipline h⟩

end ResolverPipeline
