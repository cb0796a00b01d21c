import Mathlib.Data.List.Basic
import ResolverPipeline.Proofs.Lossless
import ResolverPipeline.Proofs.ReferenceGrammar

namespace ResolverPipeline

def between? (opening closing : String) (text : List Char) : Option (List Char) :=
  (text.dropPrefix? opening.toList).bind (·.dropSuffix? closing.toList)

def rawBase? (text : List Char) : Option (List Char) :=
  (between? "$ctx.args." "" text).map ('$' :: ·) <|>
  (between? "$ctx.stash.input." "" text).map ('$' :: ·) <|>
  (between? "$ctx.stash.dbresult." "" text).map ('#' :: ·) <|>
  between? "\"" "\"" text

def rawValue? (text : String) : Option String :=
  match between? "$util.str.toReplace(" ", \"@id\", $util.autoId())" text.toList with
  | some base => (rawBase? base).map String.ofList
  | none => (rawBase? text.toList).map String.ofList

theorem between?_append (opening closing text : String) :
    between? opening closing (opening ++ text ++ closing).toList = some text.toList := by
  have hprefix : (opening ++ text ++ closing).toList.dropPrefix? opening.toList =
      some (text ++ closing).toList := by
    rw [List.dropPrefix?_eq_some_iff]
    exact ⟨opening.toList, by simp, beq_self_eq_true _⟩
  rw [between?, hprefix, Option.bind_some, List.dropSuffix?_eq_some_iff]
  exact ⟨closing.toList, String.toList_append, beq_self_eq_true _⟩

theorem between?_path (marker path : String) :
    between? marker "" (marker ++ path).toList = some path.toList := by
  simpa using between?_append marker "" path

theorem between?_eq_none {opening closing text : String} (h : ∀ rest, text ≠ opening ++ rest) :
    between? opening closing text.toList = none := by
  rw [between?, Option.bind_eq_none_iff]
  intro rest hrest
  obtain ⟨front, htext, hfront⟩ := List.dropPrefix?_eq_some_iff.1 hrest
  obtain rfl := eq_of_beq hfront
  exact absurd (String.toList_inj.1 (by simpa using htext)) (h (String.ofList rest))

theorem between?_other {opening closing other : String} (h : ¬ opening.toList <+: other.toList)
    (h' : ¬ other.toList <+: opening.toList) (text : String) :
    between? opening closing (other ++ text).toList = none := by
  apply between?_eq_none
  intro rest htext
  -- Of two words that begin one text, the shorter begins the longer.
  have hother : other.toList <+: (other ++ text).toList := by simp
  have hopening : opening.toList <+: (other ++ text).toList := by simp [htext]
  exact (List.prefix_or_prefix_of_prefix hopening hother).elim h h'

theorem rawBase?_of_spelled {scope : Scope} {value base : String} {kind : ReferenceKind}
    (h : Spelled scope value kind base) : rawBase? base.toList = some value.toList := by
  cases h with
  | argument =>
    rw [rawBase?, between?_path]
    simp
  | input =>
    rw [rawBase?, between?_other (by decide) (by decide), between?_path]
    simp
  | result =>
    rw [rawBase?, between?_other (by decide) (by decide), between?_other (by decide) (by decide),
      between?_path]
    simp
  | literal =>
    rw [rawBase?, between?_append, String.append_assoc, between?_other (by decide) (by decide),
      between?_other (by decide) (by decide), between?_other (by decide) (by decide)]
    rfl

theorem rawValue?_of_resolve {value : String} {scope : Scope} {e : Expression}
    (h : resolve value scope = .ok e) : rawValue? e.text = some value := by
  obtain ⟨base, hbase, -, htext⟩ := resolve_eq_ok_iff_spelled.1 h
  rw [htext, rawValue?]
  cases e.generatesId with
  | true =>
    rw [if_pos rfl, between?_append]
    simp [rawBase?_of_spelled hbase]
  | false =>
    have hcall : ∀ rest, base ≠ "$util.str.toReplace(" ++ rest := by
      intro rest heq
      apply baseText_ne_fresh (baseText_iff_spelled.2 hbase) "" rest
      rwa [String.append_empty]
    simp [between?_eq_none hcall, rawBase?_of_spelled hbase]

theorem unit_list_eq_ok {access : DbAccess} {t : ResolverTemplates} (hlist : access.action = .list)
    (h : ResolverTemplates.unit access = .ok t) : ∃ pk sk p k, access.pk = some pk ∧
      access.sk = some sk ∧ resolve pk .direct = .ok p ∧ resolve sk .direct = .ok k ∧
      ResolverTemplates.unitOf .list p.text k.text = t := by
  obtain ⟨action, pk?, sk?⟩ := access
  subst hlist
  rw [ResolverTemplates.unit_eq, bind_eq_ok] at h
  obtain ⟨⟨pt, kt⟩, hkeys, ht⟩ := h
  rw [ResolverTemplates.directKeys_list, ResolverTemplates.directKey_eq_ok,
    ResolverTemplates.directKey_eq_ok] at hkeys
  obtain ⟨⟨pk, p, hpk, hp, rfl⟩, sk, k, hsk, hk, rfl⟩ := hkeys
  exact ⟨pk, sk, p, k, hpk, hsk, hp, hk, Except.ok.inj ht⟩

theorem unit_list_inj {access access' : DbAccess} {t t' : ResolverTemplates}
    (hlist : access.action = .list) (hlist' : access'.action = .list)
    (h : ResolverTemplates.unit access = .ok t) (h' : ResolverTemplates.unit access' = .ok t')
    (hrequest : t.request = t'.request) : access.pk = access'.pk ∧ access.sk = access'.sk := by
  obtain ⟨pk, sk, p, k, hpk, hsk, hp, hk, rfl⟩ := unit_list_eq_ok hlist h
  obtain ⟨pk', sk', p', k', hpk', hsk', hp', hk', rfl⟩ := unit_list_eq_ok hlist' h'
  obtain ⟨before, between, after, htext⟩ := queryRequest_textIn
  have hkeys : before ++ (p.text ++ (between ++ (k.text ++ after))) =
      before ++ (p'.text ++ (between ++ (k'.text ++ after))) := by
    rw [← htext, ← htext]
    exact hrequest
  obtain ⟨rfl, rfl⟩ := keys_inj rfl hp hk hp' hk' hkeys
  exact ⟨hpk.trans hpk'.symm, hsk.trans hsk'.symm⟩

theorem unit_of_compileField {handles : Handles} {app : AppConfig} {operation : Operation}
    {field : String} {access : DbAccess} {f : CompiledField}
    (h : (compileField handles app operation field (.single (.db access))).result = .ok f) :
    ∃ t, ResolverTemplates.unit access = .ok t ∧ f.requestTemplate = t.request := by
  simp only [compileField, compileUnit, Traced.result_ofExcept, bind_eq_ok] at h
  obtain ⟨t, ht, hf⟩ := h
  cases hf
  exact ⟨t, ht, rfl⟩

/-- Nothing of a value is lost on the way to its text, so that no two values of a scope share a text, and
no two lone queries with different keys a request, whatever else they are compiled with. -/
theorem resolve_lossless (handles handles' : Handles) (app app' : AppConfig)
    (operation operation' : Operation) (field field' : String) :
    (∀ scope v e, resolve v scope = .ok e → rawValue? e.text = some v) ∧
    (∀ scope v w e f, resolve v scope = .ok e → resolve w scope = .ok f → e.text = f.text →
      v = w ∧ e = f) ∧
    ∀ access access' : DbAccess, access.action = .list → access'.action = .list →
      (∀ t t', ResolverTemplates.unit access = .ok t → ResolverTemplates.unit access' = .ok t' →
        t.request = t'.request → access.pk = access'.pk ∧ access.sk = access'.sk) ∧
      ∀ f f', (compileField handles app operation field (.single (.db access))).result = .ok f →
        (compileField handles' app' operation' field' (.single (.db access'))).result = .ok f' →
        f.requestTemplate = f'.requestTemplate → access.pk = access'.pk ∧ access.sk = access'.sk := by
  refine ⟨fun scope v e => rawValue?_of_resolve, fun scope v w e f he hf htext => ?_,
    fun access access' hlist hlist' =>
      ⟨fun t t' => unit_list_inj hlist hlist', fun f f' hf hf' hrequest => ?_⟩⟩
  · have hsame : some v = some w := by
      rw [← rawValue?_of_resolve he, ← rawValue?_of_resolve hf, htext]
    obtain rfl := Option.some.inj hsame
    exact ⟨rfl, Except.ok.inj (he.symm.trans hf)⟩
  · obtain ⟨t, ht, hrequest_t⟩ := unit_of_compileField hf
    obtain ⟨t', ht', hrequest_t'⟩ := unit_of_compileField hf'
    rw [hrequest_t, hrequest_t'] at hrequest
    exact unit_list_inj hlist hlist' ht ht' hrequest

def lookalikeKeys : DbAccess := ⟨.list, some "$a, @id), b", some "),\n      :sk: (@"⟩

theorem lookalikeKeys_lossless :
    (∃ e f, resolve "$a, @id), b" .direct = .ok e ∧ resolve "$a, @id), b" .direct = .ok f ∧
      e.text = "$util.str.toReplace($ctx.args.a, @id), b, \"@id\", $util.autoId())" ∧
      rawValue? e.text = some "$a, @id), b" ∧ e.text = f.text ∧ e = f) ∧
    (∃ t, ResolverTemplates.unit lookalikeKeys = .ok t ∧
      ∀ access, access.action = .list → ResolverTemplates.unit access = .ok t →
        access.pk = lookalikeKeys.pk ∧ access.sk = lookalikeKeys.sk) ∧
    ∃ access f f', access.action = .list ∧
      (compileField {} ⟨"notes", none, none⟩ .query "list"
        (.single (.db lookalikeKeys))).result = .ok f ∧
      (compileField { store := "archive" } ⟨"old", none, none⟩ .mutation "all"
        (.single (.db access))).result = .ok f' ∧
      f.dependsOn ≠ f'.dependsOn ∧ f.requestTemplate = f'.requestTemplate ∧
      lookalikeKeys.pk = access.pk ∧ lookalikeKeys.sk = access.sk := by
  obtain ⟨hraw, hinj, hkeys⟩ := resolve_lossless {} { store := "archive" } ⟨"notes", none, none⟩
    ⟨"old", none, none⟩ .query .mutation "list" "all"
  have hvalue : resolve "$a, @id), b" .direct = .ok ⟨.input, true,
      "$util.str.toReplace($ctx.args.a, @id), b, \"@id\", $util.autoId())"⟩ := by decide +kernel
  have hunit : (ResolverTemplates.unit lookalikeKeys).isOk = true := by decide +kernel
  have hfield : (compileField {} ⟨"notes", none, none⟩ .query "list"
      (.single (.db lookalikeKeys))).result.map CompiledField.dependsOn =
      .ok [.dataSource "DynamoDataSource", .schema "api-schema"] := by decide +kernel
  have hfield' : (compileField { store := "archive" } ⟨"old", none, none⟩ .mutation "all"
      (.single (.db lookalikeKeys))).result.map CompiledField.dependsOn =
      .ok [.dataSource "archive", .schema "api-schema"] := by decide +kernel
  obtain ⟨t, ht⟩ := exists_ok_of_isOk hunit
  obtain ⟨f, hf, hdepends⟩ := map_eq_ok.1 hfield
  obtain ⟨f', hf', hdepends'⟩ := map_eq_ok.1 hfield'
  have hrequest : f.requestTemplate = f'.requestTemplate := by
    obtain ⟨u, hu, hfu⟩ := unit_of_compileField hf
    obtain ⟨u', hu', hfu'⟩ := unit_of_compileField hf'
    rw [hfu, hfu', Except.ok.inj (hu.symm.trans hu')]
  obtain ⟨-, hfields⟩ := hkeys lookalikeKeys lookalikeKeys rfl rfl
  refine ⟨⟨_, _, hvalue, hvalue, rfl, hraw _ _ _ hvalue, rfl, (hinj _ _ _ _ _ hvalue hvalue rfl).2⟩,
    ⟨t, ht, fun access hlist h => (hkeys access lookalikeKeys hlist rfl).1 t t h ht rfl⟩,
    lookalikeKeys, f, f', rfl, hf, hf', ?_, hrequest, hfields f f' hf hf' hrequest⟩
  rw [hdepends, hdepends']
  decide

end ResolverPipeline
