import ResolverPipeline.Proofs.Outcome
import ResolverPipeline.ResolverTemplates

namespace ResolverPipeline.Template

namespace Context

def text (c : Context) (name : String) : String := (c.get? name).elim "" Value.display

def pairs (c : Context) (name : String) : List (String × String) :=
  match (c.get? name).map Value.pairs with
  | some (.ok ps) => ps
  | _ => []

def within (c : Context) (p : String × String) : Context :=
  c ++ [("key", .text p.1), ("value", .text p.2)]

end Context

def Inline.textIn (c : Context) : Inline → String
  | .text s => s
  | .gap name _ => c.text name

def inlinesText (c : Context) : List Inline → String
  | [] => ""
  | i :: rest => i.textIn c ++ inlinesText c rest

def pairsText (c : Context) (body : List Inline) : List (String × String) → String
  | [] => ""
  | p :: rest => inlinesText (c.within p) body ++ pairsText c body rest

def Segment.textIn (c : Context) : Segment → String
  | .inline i => i.textIn c
  | .pairs name _ body => pairsText c body (c.pairs name)

def segmentsText (c : Context) : List Segment → String
  | [] => ""
  | s :: rest => s.textIn c ++ segmentsText c rest

def textIn (t : Template) (c : Context) : String := segmentsText c t.segments

def Inline.Bound (c : Context) : Inline → Prop
  | .text _ => True
  | .gap name _ => ∃ v, c.get? name = some v

def Segment.Bound (c : Context) : Segment → Prop
  | .inline i => i.Bound c
  | .pairs name _ body =>
    ∃ v ps, c.get? name = some v ∧ v.pairs = .ok ps ∧ ∀ p ∈ ps, ∀ i ∈ body, i.Bound (c.within p)

def Bound (t : Template) (c : Context) : Prop := ∀ s ∈ t.segments, s.Bound c

theorem Inline.render_of_bound {c : Context} {i : Inline} (h : i.Bound c) :
    i.render c = .ok (i.textIn c) := by
  cases i with
  | text s => rfl
  | gap name line =>
    obtain ⟨v, hv⟩ := h
    simp [Inline.render, Inline.textIn, Context.text, hv]

theorem renderInlines_of_bound {c : Context} {body : List Inline}
    (h : ∀ i ∈ body, i.Bound c) : renderInlines c body = .ok (inlinesText c body) := by
  induction body with
  | nil => rfl
  | cons i rest ih =>
    rw [List.forall_mem_cons] at h
    simp [renderInlines, inlinesText, Inline.render_of_bound h.1, ih h.2]

theorem renderPairs_of_bound {c : Context} {body : List Inline} {ps : List (String × String)}
    (h : ∀ p ∈ ps, ∀ i ∈ body, i.Bound (c.within p)) :
    renderPairs c body ps = .ok (pairsText c body ps) := by
  induction ps with
  | nil => rfl
  | cons p rest ih =>
    rw [List.forall_mem_cons] at h
    have hp : renderInlines (c ++ [("key", .text p.1), ("value", .text p.2)]) body =
        .ok (inlinesText (c.within p) body) := renderInlines_of_bound h.1
    simp [renderPairs, pairsText, hp, ih h.2]

theorem Segment.render_of_bound {c : Context} {s : Segment} (h : s.Bound c) :
    s.render c = .ok (s.textIn c) := by
  cases s with
  | inline i => exact Inline.render_of_bound h
  | pairs name line body =>
    obtain ⟨v, ps, hv, hps, hbody⟩ := h
    simp [Segment.render, Segment.textIn, Context.pairs, hv, hps, renderPairs_of_bound hbody]

theorem renderSegments_of_bound {c : Context} {ss : List Segment}
    (h : ∀ s ∈ ss, s.Bound c) : renderSegments c ss = .ok (segmentsText c ss) := by
  induction ss with
  | nil => rfl
  | cons s rest ih =>
    rw [List.forall_mem_cons] at h
    simp [renderSegments, segmentsText, Segment.render_of_bound h.1, ih h.2]

theorem render_of_bound {t : Template} {c : Context} (h : t.Bound c) :
    t.render c = .ok (t.textIn c) := by
  simp [render, textIn, renderSegments_of_bound h]

theorem find?_builtin {t : Template} (h : t ∈ builtin) : find? builtin t.name = some t := by
  simp only [builtin, List.mem_cons, List.not_mem_nil, or_false] at h
  obtain rfl | rfl | rfl | rfl | rfl | rfl | rfl | rfl | rfl | rfl | rfl | rfl := h <;> rfl

theorem fill_of_bound {t : Template} {c : Context} (ht : t ∈ builtin) (h : t.Bound c) :
    t.fill c = .ok (t.textIn c) := by
  rw [fill, renderBuiltin, find?_builtin ht]
  simp only [render_of_bound h, mapError_ok]

def Inline.fixed : Inline → String
  | .text s => s
  | .gap _ _ => ""

def Segment.fixed : Segment → List String
  | .inline i => [i.fixed]
  | .pairs _ _ body => body.map Inline.fixed

def fixed (t : Template) : List String := t.segments.flatMap Segment.fixed

def Inline.FilledBy (P : String → Prop) (c : Context) : Inline → Prop
  | .text _ => True
  | .gap name _ => P (c.text name)

def Segment.FilledBy (P : String → Prop) (c : Context) : Segment → Prop
  | .inline i => i.FilledBy P c
  | .pairs name _ body => ∀ p ∈ c.pairs name, ∀ i ∈ body, i.FilledBy P (c.within p)

def FilledBy (P : String → Prop) (t : Template) (c : Context) : Prop :=
  ∀ s ∈ t.segments, s.FilledBy P c

/-- That a text has the property once its parts have it. -/
structure ByParts (P : String → Prop) : Prop where
  empty : P ""
  append : ∀ {a b : String}, P a → P b → P (a ++ b)

section ByParts

variable {P : String → Prop} {c : Context}

theorem Inline.textIn_byParts {i : Inline} (hfixed : P i.fixed) (h : i.FilledBy P c) :
    P (i.textIn c) := by
  cases i with
  | text s => exact hfixed
  | gap name line => exact h

theorem inlinesText_byParts (hP : ByParts P) {body : List Inline}
    (hfixed : ∀ i ∈ body, P i.fixed) (h : ∀ i ∈ body, i.FilledBy P c) :
    P (inlinesText c body) := by
  induction body with
  | nil => exact hP.empty
  | cons i rest ih =>
    rw [List.forall_mem_cons] at hfixed h
    exact hP.append (Inline.textIn_byParts hfixed.1 h.1) (ih hfixed.2 h.2)

theorem pairsText_byParts (hP : ByParts P) {body : List Inline} {ps : List (String × String)}
    (hfixed : ∀ i ∈ body, P i.fixed) (h : ∀ p ∈ ps, ∀ i ∈ body, i.FilledBy P (c.within p)) :
    P (pairsText c body ps) := by
  induction ps with
  | nil => exact hP.empty
  | cons p rest ih =>
    rw [List.forall_mem_cons] at h
    exact hP.append (inlinesText_byParts hP hfixed h.1) (ih h.2)

theorem Segment.textIn_byParts (hP : ByParts P) {s : Segment} (hfixed : ∀ f ∈ s.fixed, P f)
    (h : s.FilledBy P c) : P (s.textIn c) := by
  cases s with
  | inline i => exact Inline.textIn_byParts (hfixed _ List.mem_cons_self) h
  | pairs name line body =>
    apply pairsText_byParts hP _ h
    intro i hi
    exact hfixed _ (List.mem_map_of_mem hi)

theorem segmentsText_byParts (hP : ByParts P) {ss : List Segment}
    (hfixed : ∀ f ∈ ss.flatMap Segment.fixed, P f) (h : ∀ s ∈ ss, s.FilledBy P c) :
    P (segmentsText c ss) := by
  induction ss with
  | nil => exact hP.empty
  | cons s rest ih =>
    rw [List.forall_mem_cons] at h
    rw [List.flatMap_cons, List.forall_mem_append] at hfixed
    exact hP.append (s.textIn_byParts hP hfixed.1 h.1) (ih hfixed.2 h.2)

theorem textIn_byParts (hP : ByParts P) {t : Template} (hfixed : ∀ f ∈ t.fixed, P f)
    (h : t.FilledBy P c) : P (t.textIn c) :=
  segmentsText_byParts hP hfixed h

end ByParts

theorem pairs_rows (entries : List (String × Expression)) :
    (Value.rows (entries.map fun (key, e) => [key, e.text])).pairs =
      .ok (entries.map fun (key, e) => (key, e.text)) := by
  induction entries with
  | nil => rfl
  | cons entry rest ih =>
    obtain ⟨key, e⟩ := entry
    simp only [Value.pairs, List.map_cons, List.mapM_cons] at ih ⊢
    simp [ih]

section Fill

-- Long fixed texts are left as they stand: none of them matters to what is bound.
attribute [local simp] Bound Segment.Bound Inline.Bound builtin text gap Context.get?
  Context.within List.lookup_cons pairs_rows

theorem fill_guardRequest (pk sk : String) :
    guardRequest.fill [("pk", .text pk), ("sk", .text sk)] =
      .ok (guardRequest.textIn [("pk", .text pk), ("sk", .text sk)]) :=
  fill_of_bound (by simp) (by simp [guardRequest, keyedRequest, -String.reduceAppend])

theorem fill_guardResponse : guardResponse.fill [] = .ok (guardResponse.textIn []) :=
  fill_of_bound (by simp) (by simp [guardResponse, -String.reduceAppend])

theorem fill_storeTemplate (pk sk item : String) (action : DbAction) :
    (Step.storeTemplate action).1.fill (Step.storeContext pk sk item action) =
      .ok ((Step.storeTemplate action).1.textIn (Step.storeContext pk sk item action)) := by
  apply fill_of_bound
  · cases action <;> simp [Step.storeTemplate]
  · cases action <;>
      simp [Step.storeTemplate, Step.storeContext, getItemRequest, queryRequest, putItemRequest,
        deleteItemRequest, keyedRequest, -String.reduceAppend]

theorem fill_stashResultResponse (slot value : String) :
    stashResultResponse.fill [("slot", .text slot), ("value", .text value)] =
      .ok (stashResultResponse.textIn [("slot", .text slot), ("value", .text value)]) :=
  fill_of_bound (by simp) (by simp [stashResultResponse])

theorem fill_resultResponse (value : String) :
    resultResponse.fill [("value", .text value)] =
      .ok (resultResponse.textIn [("value", .text value)]) :=
  fill_of_bound (by simp) (by simp [resultResponse])

theorem fill_emitRequest (detail : List (String × Expression)) (source bus event : String) :
    emitRequest.fill [
        ("detail", .rows (detail.map fun (key, e) => [key, e.text])),
        ("source", .text source), ("bus", .text bus), ("event", .text event)] =
      .ok (emitRequest.textIn [
        ("detail", .rows (detail.map fun (key, e) => [key, e.text])),
        ("source", .text source), ("bus", .text bus), ("event", .text event)]) :=
  fill_of_bound (by simp) (by simp [emitRequest, -String.reduceAppend])

theorem fill_emitResponse : emitResponse.fill [] = .ok (emitResponse.textIn []) :=
  fill_of_bound (by simp) (by simp [emitResponse, -String.reduceAppend])

theorem fill_pipelineRequest (seed : String) (fields : List (String × Expression)) :
    pipelineRequest.fill [
        ("seed", .text seed), ("fields", .rows (fields.map fun (key, e) => [key, e.text]))] =
      .ok (pipelineRequest.textIn [
        ("seed", .text seed), ("fields", .rows (fields.map fun (key, e) => [key, e.text]))]) :=
  fill_of_bound (by simp) (by simp [pipelineRequest])

theorem fill_pipelineResponse (result fallback : String) :
    pipelineResponse.fill [("result", .text result), ("fallback", .text fallback)] =
      .ok (pipelineResponse.textIn [("result", .text result), ("fallback", .text fallback)]) :=
  fill_of_bound (by simp) (by simp [pipelineResponse])

end Fill

section FilledBy

variable {P : String → Prop}

attribute [local simp] FilledBy Segment.FilledBy Inline.FilledBy text gap Context.text
  Context.pairs Context.get? Context.within List.lookup_cons Value.display pairs_rows

theorem guardRequest_filledBy {pk sk : String} (hpk : P pk) (hsk : P sk) :
    guardRequest.FilledBy P [("pk", .text pk), ("sk", .text sk)] := by
  simp [guardRequest, keyedRequest, -String.reduceAppend, hpk, hsk]

theorem storeTemplate_filledBy {pk sk item : String} (hpk : P pk) (hsk : P sk) (hitem : P item)
    (action : DbAction) :
    (Step.storeTemplate action).1.FilledBy P (Step.storeContext pk sk item action) := by
  cases action <;>
    simp [Step.storeTemplate, Step.storeContext, getItemRequest, queryRequest, putItemRequest,
      deleteItemRequest, keyedRequest, -String.reduceAppend, hpk, hsk, hitem]

theorem resultResponse_filledBy {value : String} (h : P value) :
    resultResponse.FilledBy P [("value", .text value)] := by
  simp [resultResponse, h]

theorem emitRequest_filledBy {detail : List (String × Expression)} {source bus event : String}
    (hdetail : ∀ r ∈ detail, P r.1 ∧ P r.2.text) (hsource : P source) (hbus : P bus)
    (hevent : P event) :
    emitRequest.FilledBy P [
      ("detail", .rows (detail.map fun (key, e) => [key, e.text])),
      ("source", .text source), ("bus", .text bus), ("event", .text event)] := by
  simpa [emitRequest, -String.reduceAppend, hsource, hbus, hevent] using hdetail

theorem pipelineRequest_filledBy {seed : String} {fields : List (String × Expression)}
    (hseed : P seed) (hfields : ∀ r ∈ fields, P r.1 ∧ P r.2.text) :
    pipelineRequest.FilledBy P [
      ("seed", .text seed), ("fields", .rows (fields.map fun (key, e) => [key, e.text]))] := by
  simpa [pipelineRequest, hseed] using hfields

end FilledBy

end ResolverPipeline.Template
