import ResolverPipeline.Proofs.Compilation

/-!
Quotes and markers of compiled templates.  They come from the templates themselves and from the forms
of the values; the texts of a definition add none and move none.
-/

namespace ResolverPipeline

open Template

def markers (s : String) : List Char := s.toList.filter isReserved

@[simp] theorem markers_append (a b : String) : markers (a ++ b) = markers a ++ markers b := by
  simp [markers]

theorem Plain.markers_eq {s : String} (h : Plain s) : markers s = [] := by
  rw [plain_iff_find?_reserved, List.find?_eq_none] at h
  exact List.filter_eq_nil_iff.2 h

def SameMarkers (a b : String) : Prop := markers a = markers b

@[simp] theorem SameMarkers.refl (a : String) : SameMarkers a a := rfl

theorem SameMarkers.append {a a' b b' : String} (ha : SameMarkers a a') (hb : SameMarkers b b') :
    SameMarkers (a ++ b) (a' ++ b') := by
  rw [SameMarkers, markers_append, markers_append, ha, hb]

theorem SameMarkers.of_plain {a b : String} (ha : Plain a) (hb : Plain b) : SameMarkers a b := by
  rw [SameMarkers, ha.markers_eq, hb.markers_eq]

namespace Template

/-- That two bindings put texts with the same markers into the gaps, and as many rows into loops. -/
def Inline.Alike (c c' : Context) : Inline → Prop
  | .text _ => True
  | .gap name _ => SameMarkers (c.text name) (c'.text name)

def Segment.Alike (c c' : Context) : Segment → Prop
  | .inline i => i.Alike c c'
  | .pairs name _ body =>
    List.Forall₂ (fun p p' => ∀ i ∈ body, i.Alike (c.within p) (c'.within p'))
      (c.pairs name) (c'.pairs name)

def Alike (t : Template) (c c' : Context) : Prop := ∀ s ∈ t.segments, s.Alike c c'

section Alike

variable {c c' : Context}

theorem Inline.markers_textIn {i : Inline} (h : i.Alike c c') :
    markers (i.textIn c) = markers (i.textIn c') := by
  cases i with
  | text s => rfl
  | gap name line => exact h

theorem markers_inlinesText {body : List Inline} (h : ∀ i ∈ body, i.Alike c c') :
    markers (inlinesText c body) = markers (inlinesText c' body) := by
  induction body with
  | nil => rfl
  | cons i rest ih =>
    rw [List.forall_mem_cons] at h
    simp only [inlinesText, markers_append, Inline.markers_textIn h.1, ih h.2]

theorem markers_pairsText {body : List Inline} {ps ps' : List (String × String)}
    (h : List.Forall₂ (fun p p' => ∀ i ∈ body, i.Alike (c.within p) (c'.within p')) ps ps') :
    markers (pairsText c body ps) = markers (pairsText c' body ps') := by
  induction h with
  | nil => rfl
  | cons hp _ ih => simp only [pairsText, markers_append, markers_inlinesText hp, ih]

theorem Segment.markers_textIn {s : Segment} (h : s.Alike c c') :
    markers (s.textIn c) = markers (s.textIn c') := by
  cases s with
  | inline i => exact Inline.markers_textIn h
  | pairs name line body => exact markers_pairsText h

theorem markers_segmentsText {ss : List Segment} (h : ∀ s ∈ ss, s.Alike c c') :
    markers (segmentsText c ss) = markers (segmentsText c' ss) := by
  induction ss with
  | nil => rfl
  | cons s rest ih =>
    rw [List.forall_mem_cons] at h
    simp only [segmentsText, markers_append, Segment.markers_textIn h.1, ih h.2]

theorem sameMarkers_textIn {t : Template} (h : t.Alike c c') :
    SameMarkers (t.textIn c) (t.textIn c') :=
  markers_segmentsText h

end Alike

section Builtin

attribute [local simp] Alike Segment.Alike Inline.Alike text gap Context.text Context.pairs
  Context.get? Context.within List.lookup_cons Value.display pairs_rows

theorem guardRequest_alike {pk sk pk' sk' : String} (hpk : SameMarkers pk pk')
    (hsk : SameMarkers sk sk') : guardRequest.Alike
      [("pk", .text pk), ("sk", .text sk)] [("pk", .text pk'), ("sk", .text sk')] := by
  simp [guardRequest, keyedRequest, -String.reduceAppend, hpk, hsk]

theorem storeTemplate_alike {pk sk pk' sk' : String} (hpk : SameMarkers pk pk')
    (hsk : SameMarkers sk sk') (item : String) (action : DbAction) :
    (Step.storeTemplate action).1.Alike (Step.storeContext pk sk item action)
      (Step.storeContext pk' sk' item action) := by
  cases action <;>
    simp [Step.storeTemplate, Step.storeContext, getItemRequest, queryRequest, putItemRequest,
      deleteItemRequest, keyedRequest, -String.reduceAppend, hpk, hsk]

abbrev SameEntries (rs rs' : List (String × Expression)) : Prop :=
  List.Forall₂ (fun r r' => SameMarkers r.1 r'.1 ∧ SameMarkers r.2.text r'.2.text) rs rs'

theorem emitRequest_alike {detail detail' : List (String × Expression)}
    {source bus event source' bus' event' : String} (hdetail : SameEntries detail detail')
    (hsource : SameMarkers source source') (hbus : SameMarkers bus bus')
    (hevent : SameMarkers event event') :
    emitRequest.Alike
      [("detail", .rows (detail.map fun (key, e) => [key, e.text])),
        ("source", .text source), ("bus", .text bus), ("event", .text event)]
      [("detail", .rows (detail'.map fun (key, e) => [key, e.text])),
        ("source", .text source'), ("bus", .text bus'), ("event", .text event')] := by
  simpa [emitRequest, -String.reduceAppend, hsource, hbus, hevent] using hdetail

theorem pipelineRequest_alike (seed : String) {fields fields' : List (String × Expression)}
    (hfields : SameEntries fields fields') :
    pipelineRequest.Alike
      [("seed", .text seed), ("fields", .rows (fields.map fun (key, e) => [key, e.text]))]
      [("seed", .text seed), ("fields", .rows (fields'.map fun (key, e) => [key, e.text]))] := by
  simpa [pipelineRequest] using hfields

end Builtin

end Template

def referenceKind (value : String) : ReferenceKind :=
  match value.toList with
  | '$' :: _ => .input
  | '#' :: _ => .result
  | _ => .literal

/-- That two raw values are of one kind, and that both or neither mention `@id`. -/
def SameForm (v v' : String) : Prop :=
  referenceKind v = referenceKind v' ∧ mentionsId v = mentionsId v'

instance (v v' : String) : Decidable (SameForm v v') := by unfold SameForm; infer_instance

section Resolved

variable {scope scope' : Scope} {v v' t : String} {kind : ReferenceKind}

theorem Plain.referenceKind_eq (h : Plain v) : referenceKind v = .literal := by
  unfold referenceKind
  split
  · rename_i cs hv
    simp [Plain, hv] at h
  · rename_i cs hv
    simp [Plain, hv] at h
  · rfl

theorem kind_of_resolve {e : Expression} (h : resolve v scope = .ok e) :
    e.kind = referenceKind v := by
  obtain ⟨kind, base, hbase, rfl⟩ := resolve_eq_ok.1 h
  cases hbase with
  | input => simp [referenceKind]
  | result => simp [referenceKind]
  | literal hp => exact hp.referenceKind_eq.symm

def baseMarkers : ReferenceKind → List Char
  | .input | .result => ['$']
  | .literal => ['"', '"']

theorem markers_baseText (h : BaseText scope v kind t) : markers t = baseMarkers kind := by
  have hdot : markers "." = [] := by decide
  have hquote : markers "\"" = ['"'] := by decide
  cases h with
  | input _ hp =>
    have hbase : markers scope.inputBase = ['$'] := by
      cases scope with
      | direct => decide
      | pipeline stored => exact (by decide : markers Slot.input.path = ['$'])
    simp [hbase, hdot, hp.markers_eq, baseMarkers]
  | result _ _ hp =>
    have hbase : markers Slot.dbResult.path = ['$'] := by decide
    simp [hbase, hdot, hp.markers_eq, baseMarkers]
  | literal hp => simp [hquote, hp.markers_eq, baseMarkers]

theorem sameMarkers_resolved {e e' : Expression} (he : resolve v scope = .ok e)
    (he' : resolve v' scope' = .ok e') (h : SameForm v v') : SameMarkers e.text e'.text := by
  obtain ⟨kind, base, hbase, rfl⟩ := resolve_eq_ok.1 he
  obtain ⟨kind', base', hbase', rfl⟩ := resolve_eq_ok.1 he'
  have hkind : kind = kind' :=
    (kind_of_resolve he).trans (h.1.trans (kind_of_resolve he').symm)
  have htext : SameMarkers base base' := by
    rw [SameMarkers, markers_baseText hbase, markers_baseText hbase', hkind]
  simp only [freshText, ← h.2]
  split
  · exact ((((SameMarkers.refl _).append htext).append (.refl _)).append (.refl _)).append (.refl _)
  · exact htext

end Resolved

abbrev SameForms (entries entries' : List (String × String)) : Prop :=
  List.Forall₂ (fun e e' => SameForm e.2 e'.2) entries entries'

structure DbAccess.SameShape (access access' : DbAccess) : Prop where
  action : access.action = access'.action
  pk : access.action = .list → ∀ v ∈ access.pk, ∀ v' ∈ access'.pk, SameForm v v'
  sk : access.action = .list → ∀ v ∈ access.sk, ∀ v' ∈ access'.sk, SameForm v v'

def Descriptor.SameShape : Descriptor → Descriptor → Prop
  | .guard pk sk, .guard pk' sk' => SameForm pk pk' ∧ SameForm sk sk'
  | .db access, .db access' => access.action = access'.action
  | .emit _ data, .emit _ data' => SameForms data.entries data'.entries
  | _, _ => False

/-- That two resolvers differ in their texts only, as far as they can compile at all.  Where their
`add` descriptors stand does not matter, but what these come to does. -/
def Resolver.SameShape : Resolver → Resolver → Prop
  | .single (.db access), .single (.db access') => access.SameShape access'
  | .pipeline ds, .pipeline ds' =>
    List.Forall₂ Descriptor.SameShape (ds.filter Descriptor.isExecutable)
        (ds'.filter Descriptor.isExecutable) ∧
      SameForms (mergedFields ds).entries (mergedFields ds').entries
  | _, _ => False

structure Step.SameMarkers (s s' : Step) : Prop where
  request : ResolverPipeline.SameMarkers s.requestTemplate s'.requestTemplate
  response : ResolverPipeline.SameMarkers s.responseTemplate s'.responseTemplate

structure CompiledField.SameMarkers (f f' : CompiledField) : Prop where
  request : ResolverPipeline.SameMarkers f.requestTemplate f'.requestTemplate
  response : ResolverPipeline.SameMarkers f.responseTemplate f'.responseTemplate
  steps : List.Forall₂ Step.SameMarkers f.steps f'.steps

variable {handles handles' : Handles} {app app' : AppConfig} {operation : Operation}
  {field field' : String} {scope scope' : Scope}

theorem sameEntries_of_sameForms {entries entries' : List (String × String)}
    {rs rs' : List (String × Expression)} (h : List.Forall₂ (ResolvedEntry scope) entries rs)
    (h' : List.Forall₂ (ResolvedEntry scope') entries' rs') (hforms : SameForms entries entries') :
    SameEntries rs rs' := by
  apply forall₂_square _ h h' hforms
  intro entry entry' r r' hr hr' hform
  constructor
  · rw [hr.key_eq, hr'.key_eq]
    exact .of_plain hr.plain_key hr'.plain_key
  · exact sameMarkers_resolved hr.resolve_eq hr'.resolve_eq hform

theorem Descriptor.Builds.sameMarkers {d d' : Descriptor} {name name' : StepKind → String}
    {s s' : Step} (h : d.Builds handles app name scope s)
    (h' : d'.Builds handles' app' name' scope' s') (hshape : d.SameShape d') :
    s.SameMarkers s' := by
  cases h with
  | guard hp hk =>
    cases h' with
    | guard hp' hk' =>
      refine ⟨sameMarkers_textIn (guardRequest_alike ?_ ?_), .refl _⟩
      · exact sameMarkers_resolved hp hp' hshape.1
      · exact sameMarkers_resolved hk hk' hshape.2
    | db access => cases hshape
    | emit => cases hshape
  | db access =>
    cases h' with
    | guard => cases hshape
    | db access' =>
      have haction : access.action = access'.action := hshape
      rw [haction]
      exact ⟨.refl _, .refl _⟩
    | emit => cases hshape
  | emit hsource hbus hevent hdetail =>
    cases h' with
    | guard => cases hshape
    | db access => cases hshape
    | emit hsource' hbus' hevent' hdetail' =>
      refine ⟨sameMarkers_textIn (emitRequest_alike ?_ ?_ ?_ ?_), .refl _⟩
      · exact sameEntries_of_sameForms hdetail hdetail' hshape
      · exact .of_plain hsource hsource'
      · exact .of_plain hbus hbus'
      · exact .of_plain hevent hevent'

theorem directKey_sameMarkers {access access' : DbAccess} {key text text' : String}
    {value value' : Option String}
    (h : ResolverTemplates.directKey access key value = .ok text)
    (h' : ResolverTemplates.directKey access' key value' = .ok text')
    (hform : ∀ v ∈ value, ∀ v' ∈ value', SameForm v v') : SameMarkers text text' := by
  obtain ⟨v, e, rfl, he, rfl⟩ := ResolverTemplates.directKey_eq_ok.1 h
  obtain ⟨v', e', rfl, he', rfl⟩ := ResolverTemplates.directKey_eq_ok.1 h'
  exact sameMarkers_resolved he he' (hform v rfl v' rfl)

theorem directKeys_sameMarkers {access access' : DbAccess} {pk sk pk' sk' : String}
    (h : ResolverTemplates.directKeys access = .ok (pk, sk))
    (h' : ResolverTemplates.directKeys access' = .ok (pk', sk'))
    (hshape : access.SameShape access') : SameMarkers pk pk' ∧ SameMarkers sk sk' := by
  obtain ⟨haction, hpk, hsk⟩ := hshape
  obtain ⟨action, pk₀, sk₀⟩ := access
  obtain ⟨action', pk₀', sk₀'⟩ := access'
  cases haction
  cases action with
  | get =>
    cases h
    cases h'
    exact ⟨.refl _, .refl _⟩
  | create =>
    cases h
    cases h'
    exact ⟨.refl _, .refl _⟩
  | remove =>
    cases h
    cases h'
    exact ⟨.refl _, .refl _⟩
  | list =>
    obtain ⟨hp, hk⟩ := ResolverTemplates.directKeys_list.1 h
    obtain ⟨hp', hk'⟩ := ResolverTemplates.directKeys_list.1 h'
    exact ⟨directKey_sameMarkers hp hp' (hpk rfl), directKey_sameMarkers hk hk' (hsk rfl)⟩

theorem unit_sameMarkers {access access' : DbAccess} {f f' : CompiledField}
    (h : CompilesTo handles app (operation, field, .single (.db access)) f)
    (h' : CompilesTo handles' app' (operation, field', .single (.db access')) f')
    (hshape : access.SameShape access') : f.SameMarkers f' := by
  obtain ⟨pk, sk, hkeys, rfl⟩ := compilesTo_unit.1 h
  obtain ⟨pk', sk', hkeys', rfl⟩ := compilesTo_unit.1 h'
  obtain ⟨hpk, hsk⟩ := directKeys_sameMarkers hkeys hkeys' hshape
  rw [hshape.action]
  refine ⟨sameMarkers_textIn (storeTemplate_alike hpk hsk _ _), ?_, .nil⟩
  simp only [CompiledField.ofUnit, ResolverTemplates.unitOf, SameMarkers.refl]

theorem pipeline_sameMarkers {ds ds' : List Descriptor} {f f' : CompiledField}
    (h : CompilesTo handles app (operation, field, .pipeline ds) f)
    (h' : CompilesTo handles' app' (operation, field', .pipeline ds') f')
    (hshape : (Resolver.pipeline ds).SameShape (.pipeline ds')) : f.SameMarkers f' := by
  obtain ⟨-, steps, fields, hsteps, hfields, rfl⟩ := compilesTo_pipeline.1 h
  obtain ⟨-, steps', fields', hsteps', hfields', rfl⟩ := compilesTo_pipeline.1 h'
  obtain ⟨hexec, hextra⟩ := hshape
  have hrows : SameEntries fields fields' := sameEntries_of_sameForms hfields hfields' hextra
  refine ⟨sameMarkers_textIn (pipelineRequest_alike _ hrows), ?_, ?_⟩
  · simp only [CompiledField.ofPipeline, ResolverTemplates.pipelineOf, SameMarkers.refl]
  · apply forall₂_square _ (stepsFrom_builds hsteps) (stepsFrom_builds hsteps') hexec
    rintro d d' s s' ⟨n, stored, hs⟩ ⟨n', stored', hs'⟩ hd
    exact hs.sameMarkers hs' hd

/-- Two resolvers of one shape compile to templates with the same quotes and markers in the same order,
whatever their texts and the names of their applications and fields are. -/
theorem compileField_sameMarkers {resolver resolver' : Resolver} {f f' : CompiledField}
    (h : (compileField handles app operation field resolver).result = .ok f)
    (h' : (compileField handles' app' operation field' resolver').result = .ok f')
    (hshape : resolver.SameShape resolver') : f.SameMarkers f' := by
  unfold Resolver.SameShape at hshape
  split at hshape
  · exact unit_sameMarkers h h' hshape
  · exact pipeline_sameMarkers h h' hshape
  · exact hshape.elim

def quietShare : Resolver := .pipeline [
  .add (.ofList [("note", "text")]),
  .guard "$owner" "profile",
  .db ⟨.get, none, none⟩,
  .emit "shared" (.ofList [("by", "#owner"), ("id", "@id")])]

def noisyShare : Resolver := .pipeline [
  .guard "$owner)),\n" "p: (",
  .db ⟨.get, some "$owner", none⟩,
  .add (.ofList [("note\\", "text))\n\x7b\x7d")]),
  .emit "shared\\, (" (.ofList [("), by", "#owner))\n"), ("", "x@id, @id")])]

theorem noisyShare_sameMarkers : ∃ f f',
    (compileField {} { name := "notes" } .mutation "share" quietShare).result = .ok f ∧
    (compileField {} { name := "', (", eventbus := some "ctx.stash" } .mutation "s" noisyShare).result
      = .ok f' ∧ quietShare.SameShape noisyShare ∧ f.SameMarkers f' := by
  obtain ⟨f, h⟩ := exists_ok_of_isOk (by decide +kernel :
    (compileField {} { name := "notes" } .mutation "share" quietShare).result.isOk = true)
  obtain ⟨f', h'⟩ := exists_ok_of_isOk (by decide +kernel :
    (compileField {} { name := "', (", eventbus := some "ctx.stash" } .mutation "s"
      noisyShare).result.isOk = true)
  have hshape : quietShare.SameShape noisyShare :=
    ⟨.cons ⟨by decide, by decide⟩ (.cons rfl (.cons (by decide : SameForms _ _) .nil)),
      by decide +kernel⟩
  exact ⟨f, f', h, h', hshape, compileField_sameMarkers h h' hshape⟩

end ResolverPipeline
