import ResolverPipeline.Proofs.Compilation
import ResolverPipeline.Proofs.Decoding

/-!
What the request templates of a pipeline tell of its descriptors.  Values are written into them as they
are, and paths without quotes; still no two lists of descriptors share all requests, unless they differ
in what no step looks at or in where their `add` descriptors stand.
-/

namespace ResolverPipeline

open Template

variable {handles : Handles} {app : AppConfig} {operation : Operation} {field : String}
  {scope scope' : Scope}

def rowsText (opening : String) : List (String × Expression) → String
  | [] => ""
  | (key, e) :: rest =>
    opening ++ (key ++ ("\", " ++ (e.text ++ ("))\n" ++ rowsText opening rest))))

section Texts

attribute [local simp] textIn segmentsText Segment.textIn Inline.textIn text gap Context.text
  Context.pairs Context.get? Context.within List.lookup_cons Value.display pairs_rows

theorem guardRequest_textIn : ∃ before between after, ∀ pk sk : String,
    guardRequest.textIn [("pk", .text pk), ("sk", .text sk)] =
      before ++ (pk ++ (between ++ (sk ++ after))) := by
  obtain ⟨a, b, c, d, h⟩ : ∃ a b c d,
      guardRequest.segments = [text a, gap "pk" 5, text b, gap "sk" 6, text c, text d] :=
    ⟨_, _, _, _, rfl⟩
  refine ⟨a, b, c ++ d, fun pk sk => ?_⟩
  simp [h]

theorem queryRequest_textIn : ∃ before between after, ∀ pk sk : String,
    queryRequest.textIn [("pk", .text pk), ("sk", .text sk)] =
      before ++ (pk ++ (between ++ (sk ++ after))) := by
  obtain ⟨a, b, c, h⟩ : ∃ a b c,
      queryRequest.segments = [text a, gap "pk" 7, text b, gap "sk" 8, text c] :=
    ⟨_, _, _, rfl⟩
  refine ⟨a, b, c, fun pk sk => ?_⟩
  simp [h]

theorem pairsText_rows (c : Context) (opening : String) (line : Nat)
    (rs : List (String × Expression)) :
    pairsText c [.text opening, .gap "key" line, .text "\", ", .gap "value" line, .text "))\n"]
      (rs.map fun (key, e) => (key, e.text)) = rowsText opening rs := by
  induction rs with
  | nil => rfl
  | cons r rest ih => simp [pairsText, inlinesText, rowsText, ih, String.append_assoc]

theorem emitRequest_textIn : ∃ before a b c d : String, (fromMarker a).head? = some '"' ∧
    ∀ (detail : List (String × Expression)) (source bus event : String),
      emitRequest.textIn [
          ("detail", .rows (detail.map fun (key, e) => [key, e.text])),
          ("source", .text source), ("bus", .text bus), ("event", .text event)] =
        before ++ (rowsText "$util.qr($detail.put(\"" detail ++
          (a ++ (source ++ (b ++ (bus ++ (c ++ (event ++ d))))))) := by
  obtain ⟨a, b, c, d, ha, h⟩ : ∃ a b c d, (fromMarker a).head? = some '"' ∧
      emitRequest.segments = [text "#set($detail = \x7b\x7d)\n",
        .pairs "detail" 2 [
          .text "$util.qr($detail.put(\"", .gap "key" 3, .text "\", ", .gap "value" 3, .text "))\n"],
        text a, gap "source" 17, text b, gap "bus" 18, text c, gap "event" 20, text d] := by
    refine ⟨_, _, _, _, ?_, rfl⟩
    -- The first of the many lines that follow has the quote.
    iterate 11 apply head?_fromMarker_append
    decide
  refine ⟨"#set($detail = \x7b\x7d)\n", a, b, c, d, ha, fun detail source bus event => ?_⟩
  simp [h, pairsText_rows]

theorem pipelineRequest_textIn : ∃ before between : String,
    ∀ (seed : String) (fields : List (String × Expression)),
      pipelineRequest.textIn [
          ("seed", .text seed), ("fields", .rows (fields.map fun (key, e) => [key, e.text]))] =
        before ++ (seed ++ (between ++
          (rowsText "$util.qr($ctx.stash.input.put(\"" fields ++ "\x7b\x7d"))) := by
  refine ⟨"$util.qr($ctx.stash.put(\"input\", ", "))\n", fun seed fields => ?_⟩
  simp [pipelineRequest, pairsText_rows]

end Texts

theorem keys_inj {pk sk pk' sk' before between after : String} {p k p' k' : Expression}
    (hscope : scope.inputBase = scope'.inputBase) (hp : resolve pk scope = .ok p)
    (hk : resolve sk scope = .ok k) (hp' : resolve pk' scope' = .ok p')
    (hk' : resolve sk' scope' = .ok k')
    (h : before ++ (p.text ++ (between ++ (k.text ++ after))) =
      before ++ (p'.text ++ (between ++ (k'.text ++ after)))) : pk = pk' ∧ sk = sk' := by
  have hanchor : Anchored (between ++ (k.text ++ after)) (between ++ (k'.text ++ after)) :=
    (Anchored.of_marked ((marked_resolved hk).append _) ((marked_resolved hk').append _)).append _
  obtain ⟨hpk, hrest⟩ := resolved_inj hscope hp hp' hanchor ((String.append_right_inj _).1 h)
  obtain ⟨hsk, -⟩ := resolved_inj hscope hk hk' (.refl after) ((String.append_right_inj _).1 hrest)
  exact ⟨hpk, hsk⟩

section Rows

variable {opening close close' : String} {rs rs' : List (String × Expression)}

/-- That lines with the opening are told from what closes them by its first marker. -/
structure Closes (opening close : String) : Prop where
  opening_head : (fromMarker opening).head? = some '$'
  close_head : (fromMarker close).head? ≠ some '$'

theorem rowsText_head (h : Closes opening close) (r : String × Expression) (more : String) :
    (fromMarker (rowsText opening (r :: rs) ++ more)).head? = some '$' := by
  rw [rowsText, String.append_assoc]
  exact head?_fromMarker_append h.opening_head _

theorem close_ne_rowsText (h : Closes opening close) (r : String × Expression) (more : String) :
    fromMarker close ≠ fromMarker (rowsText opening (r :: rs) ++ more) := by
  intro heq
  apply h.close_head
  rw [heq]
  exact rowsText_head h r more

theorem rowsText_anchored (h : Closes opening close) (h' : Closes opening close')
    (hr : Anchored close close') :
    Anchored (rowsText opening rs ++ close) (rowsText opening rs' ++ close') := by
  cases rs with
  | nil =>
    cases rs' with
    | nil => exact hr.append _
    | cons r' rest' =>
      intro heq
      rw [rowsText, String.empty_append] at heq
      exact absurd heq (close_ne_rowsText h r' close')
  | cons r rest =>
    cases rs' with
    | nil =>
      intro heq
      rw [rowsText.eq_1 opening, String.empty_append] at heq
      exact absurd heq.symm (close_ne_rowsText h' r close)
    | cons r' rest' =>
      simp only [rowsText, String.append_assoc]
      exact .of_fixed (not_plain_of_head? h.opening_head) _ _

theorem rowsText_inj (hc : Closes opening close) (hc' : Closes opening close')
    (hr : Anchored close close') (hscope : scope.inputBase = scope'.inputBase)
    {entries entries' : List (String × String)}
    (hrs : List.Forall₂ (ResolvedEntry scope) entries rs)
    (hrs' : List.Forall₂ (ResolvedEntry scope') entries' rs')
    (h : rowsText opening rs ++ close = rowsText opening rs' ++ close') :
    entries = entries' ∧ close = close' := by
  -- On the entries: what follows one of them is told by its first marker, so its key and its value can be
  -- read off, and a line is never taken for what closes the lines.
  induction hrs generalizing entries' rs' with
  | nil =>
    cases hrs' with
    | nil =>
      simp only [rowsText, String.empty_append] at h
      exact ⟨rfl, h⟩
    | @cons _ r' _ _ _ _ =>
      rw [rowsText, String.empty_append] at h
      exact absurd (congrArg fromMarker h) (close_ne_rowsText hc r' close')
  | @cons entry r entries rs hentry hrs ih =>
    cases hrs' with
    | nil =>
      rw [rowsText.eq_1 opening, String.empty_append] at h
      exact absurd (congrArg fromMarker h).symm (close_ne_rowsText hc' r close)
    | @cons entry' r' entries' rs' hentry' hrs' =>
      simp only [rowsText, String.append_assoc, String.append_right_inj, hentry.key_eq,
        hentry'.key_eq] at h
      obtain ⟨hkey, h⟩ := plain_append_inj hentry.plain_key hentry'.plain_key
        (.of_fixed (by decide) _ _) h
      obtain ⟨hvalue, h⟩ := resolved_inj hscope hentry.resolve_eq hentry'.resolve_eq
        ((rowsText_anchored hc hc' hr).append _) ((String.append_right_inj _).1 h)
      obtain ⟨rfl, hclose⟩ := ih hrs' ((String.append_right_inj _).1 h)
      exact ⟨by rw [Prod.ext hkey hvalue], hclose⟩

end Rows

def Descriptor.withoutKeys : Descriptor → Descriptor
  | .db access => .db ⟨access.action, none, none⟩
  | d => d

theorem ofAction_injective {action action' : DbAction}
    (h : StepKind.ofAction action = .ofAction action') : action = action' := by
  revert h
  cases action <;> cases action' <;> decide

theorem ofAction_ne (action : DbAction) :
    StepKind.ofAction action ≠ .guard ∧ StepKind.ofAction action ≠ .emitEvent := by
  cases action <;> decide

theorem guardOf_inj {name name' pk sk pk' sk' : String} {p k p' k' : Expression}
    (hscope : scope.inputBase = scope'.inputBase) (hp : resolve pk scope = .ok p)
    (hk : resolve sk scope = .ok k) (hp' : resolve pk' scope' = .ok p')
    (hk' : resolve sk' scope' = .ok k')
    (h : (Step.guardOf handles name p k scope).requestTemplate =
      (Step.guardOf handles name' p' k' scope').requestTemplate) : pk = pk' ∧ sk = sk' := by
  obtain ⟨before, between, after, htext⟩ := guardRequest_textIn
  simp only [Step.guardOf, Step.build, htext] at h
  exact keys_inj hscope hp hk hp' hk' h

theorem emitOf_inj {name name' source bus event event' : String} {data data' : FieldMap}
    {detail detail' : List (String × Expression)} (hscope : scope.inputBase = scope'.inputBase)
    (hdetail : List.Forall₂ (ResolvedEntry scope) data.entries detail)
    (hdetail' : List.Forall₂ (ResolvedEntry scope') data'.entries detail')
    (h : (Step.emitOf handles name detail source bus event scope).requestTemplate =
      (Step.emitOf handles name' detail' source bus event' scope').requestTemplate) :
    data = data' ∧ event = event' := by
  obtain ⟨before, a, b, c, d, ha, htext⟩ := emitRequest_textIn
  simp only [Step.emitOf, Step.build, htext, String.append_right_inj] at h
  have hclose : ∀ more, Closes "$util.qr($detail.put(\"" (a ++ more) := by
    intro more
    refine ⟨by decide, ?_⟩
    rw [head?_fromMarker_append ha]
    decide
  obtain ⟨hdata, h⟩ := rowsText_inj (hclose _) (hclose _) (.of_fixed (not_plain_of_head? ha) _ _)
    hscope hdetail hdetail' h
  simp only [String.append_right_inj, String.append_left_inj] at h
  exact ⟨FieldMap.ext hdata, h⟩

theorem pipelineOf_inj {extra extra' : FieldMap} {fields fields' : List (String × Expression)}
    (hfields : List.Forall₂ (ResolvedEntry scope) extra.entries fields)
    (hfields' : List.Forall₂ (ResolvedEntry scope) extra'.entries fields')
    (h : (ResolverTemplates.pipelineOf operation fields).request =
      (ResolverTemplates.pipelineOf operation fields').request) : extra = extra' := by
  obtain ⟨before, between, htext⟩ := pipelineRequest_textIn
  simp only [ResolverTemplates.pipelineOf, htext, String.append_right_inj] at h
  have hclose : Closes "$util.qr($ctx.stash.input.put(\"" "\x7b\x7d" := ⟨by decide, by decide⟩
  exact FieldMap.ext (rowsText_inj hclose hclose (.refl _) rfl hfields hfields' h).1

theorem Descriptor.Builds.withoutKeys_eq {d d' : Descriptor} {name name' : StepKind → String}
    {s s' : Step} (hscope : scope.inputBase = scope'.inputBase)
    (h : d.Builds handles app name scope s) (h' : d'.Builds handles app name' scope' s')
    (hkind : s.kind = s'.kind) (hrequest : s.requestTemplate = s'.requestTemplate) :
    d.withoutKeys = d'.withoutKeys := by
  cases h with
  | guard hp hk =>
    cases h' with
    | guard hp' hk' =>
      obtain ⟨rfl, rfl⟩ := guardOf_inj hscope hp hk hp' hk' hrequest
      rfl
    | db access => exact absurd hkind.symm (ofAction_ne access.action).1
    | emit => cases hkind
  | db access =>
    cases h' with
    | guard => exact absurd hkind (ofAction_ne access.action).1
    | db access' =>
      have haction : access.action = access'.action := ofAction_injective hkind
      simp only [withoutKeys, haction]
    | emit => exact absurd hkind (ofAction_ne access.action).2
  | emit _ _ _ hdetail =>
    cases h' with
    | guard => cases hkind
    | db access => exact absurd hkind.symm (ofAction_ne access.action).2
    | emit _ _ _ hdetail' =>
      obtain ⟨rfl, rfl⟩ := emitOf_inj hscope hdetail hdetail' hrequest
      rfl

/-- Kinds and requests of a pipeline tell what was declared, in order and as it was written. -/
theorem requests_tell_descriptors {ds ds' : List Descriptor} {p p' : Pipeline}
    {t t' : ResolverTemplates} (hp : (assemble handles app operation field ds).result = .ok p)
    (hp' : (assemble handles app operation field ds').result = .ok p')
    (ht : ResolverTemplates.pipeline p = .ok t) (ht' : ResolverTemplates.pipeline p' = .ok t')
    (hsteps : List.Forall₂
      (fun s s' => s.kind = s'.kind ∧ s.requestTemplate = s'.requestTemplate) p.steps p'.steps)
    (hrequest : t.request = t'.request) :
    (ds.filter Descriptor.isExecutable).map Descriptor.withoutKeys =
        (ds'.filter Descriptor.isExecutable).map Descriptor.withoutKeys ∧
      (mergedFields ds).entries = (mergedFields ds').entries := by
  obtain ⟨steps, hbuilt, rfl⟩ := steps_of_assemble hp
  obtain ⟨steps', hbuilt', rfl⟩ := steps_of_assemble hp'
  obtain ⟨fields, hfields, rfl⟩ := ResolverTemplates.pipeline_eq_ok.1 ht
  obtain ⟨fields', hfields', rfl⟩ := ResolverTemplates.pipeline_eq_ok.1 ht'
  constructor
  · apply map_eq_of_forall₂
    apply forall₂_square _ (stepsFrom_builds hbuilt).flip (stepsFrom_builds hbuilt').flip hsteps
    rintro s s' d d' ⟨n, stored, hs⟩ ⟨n', stored', hs'⟩ ⟨hkind, hrequest⟩
    have hscope : (Scope.pipeline stored).inputBase = (Scope.pipeline stored').inputBase := rfl
    exact hs.withoutKeys_eq hscope hs' hkind hrequest
  · exact congrArg FieldMap.entries (pipelineOf_inj hfields hfields' hrequest)

def lookalikeLines : List Descriptor := [
  .add (.ofList [("by), x", "$owner))\n\x7b\x7d")]),
  .guard "$owner)\n" "profile),",
  .db ⟨.get, some "$owner", none⟩,
  .emit "shared, or not" (.ofList [("note", "#text))\n\x7b\n"), ("id", "(@id)")])]

def lookalikeLinesLater : List Descriptor := [
  .guard "$owner)\n" "profile),",
  .db ⟨.get, none, some "note"⟩,
  .add (.ofList [("by), x", "$owner))\n\x7b\x7d")]),
  .emit "shared, or not" (.ofList [("note", "#text))\n\x7b\n"), ("id", "(@id)")])]

def templatesOf (ds : List Descriptor) : Except FieldError (Pipeline × ResolverTemplates) := do
  let p ← (assemble {} { name := "notes" } .mutation "share" ds).result
  return (p, ← ResolverTemplates.pipeline p)

theorem lookalikeLines_told : ∃ p t, templatesOf lookalikeLines = .ok (p, t) ∧
    templatesOf lookalikeLinesLater = .ok (p, t) ∧ lookalikeLines ≠ lookalikeLinesLater ∧
    (lookalikeLines.filter Descriptor.isExecutable).map Descriptor.withoutKeys =
      (lookalikeLinesLater.filter Descriptor.isExecutable).map Descriptor.withoutKeys ∧
    (mergedFields lookalikeLines).entries = (mergedFields lookalikeLinesLater).entries := by
  have hsame : templatesOf lookalikeLinesLater = templatesOf lookalikeLines := by decide +kernel
  have hok : (templatesOf lookalikeLines).isOk = true := by decide +kernel
  obtain ⟨⟨p, t⟩, h⟩ := exists_ok_of_isOk hok
  have h' : templatesOf lookalikeLinesLater = .ok (p, t) := hsame.trans h
  refine ⟨p, t, h, h', by decide, ?_⟩
  simp only [templatesOf, bind_eq_ok, except_pure, Except.ok.injEq, Prod.mk.injEq] at h h'
  obtain ⟨_, hp, _, ht, rfl, rfl⟩ := h
  obtain ⟨_, hp', _, ht', rfl, rfl⟩ := h'
  exact requests_tell_descriptors hp hp' ht ht' (List.forall₂_same.2 fun _ _ => ⟨rfl, rfl⟩) rfl

end ResolverPipeline
