import ResolverPipeline.Proofs.Lossless
import ResolverPipeline.Proofs.StashContract
import ResolverPipeline.Proofs.StashDiscipline

namespace ResolverPipeline

open Template

variable {operation : Operation} {scope : Scope}

section Counting

def occurrences (word text : List Char) : Nat := text.tails.countP word.isPrefixOf

theorem occurrences_cons (word : List Char) (c : Char) (cs : List Char) :
    occurrences word (c :: cs) =
      occurrences word cs + if word.isPrefixOf (c :: cs) then 1 else 0 := by
  rw [occurrences, List.tails_cons, List.countP_cons, occurrences]

theorem occurrences_append_of_avoids {word text more : List Char} (h : avoids word text) :
    occurrences word (text ++ more) = occurrences word more := by
  induction text with
  | nil => rfl
  | cons c cs ih =>
    have hword : ¬ word.isPrefixOf (c :: cs ++ more) := by
      rw [List.isPrefixOf_iff_prefix]
      exact not_prefix_append h
    rw [List.cons_append] at hword ⊢
    rw [occurrences_cons, if_neg hword, ih (avoids_cons.1 h).2.2, Nat.add_zero]

/-- That a word begins at `n` places of the text, whatever comes behind it. -/
def Begins (word : String) (n : Nat) (text : String) : Prop :=
  ∀ more, occurrences word.toList (text.toList ++ more) = n + occurrences word.toList more

namespace Begins

variable {word a b : String} {n m : Nat}

theorem of_avoids (h : Avoids word a) : Begins word 0 a := by
  intro more
  rw [occurrences_append_of_avoids h, Nat.zero_add]

theorem append (ha : Begins word n a) (hb : Begins word m b) : Begins word (n + m) (a ++ b) := by
  intro more
  rw [String.toList_append, List.append_assoc, ha, hb, Nat.add_assoc]

theorem before (ha : Avoids word a) (hb : Begins word n b) : Begins word n (a ++ b) := by
  have h := (of_avoids ha).append hb
  rwa [Nat.zero_add] at h

theorem behind (ha : Begins word n a) (hb : Avoids word b) : Begins word n (a ++ b) :=
  ha.append (of_avoids hb)

theorem self {c : Char} {cs : List Char} (hword : word.toList = c :: cs) (h : c ∉ cs) :
    Begins word 1 word := by
  intro more
  have hprefix : (c :: cs).isPrefixOf (c :: (cs ++ more)) := by
    rw [List.isPrefixOf_iff_prefix]
    exact List.prefix_append (c :: cs) more
  have hrest : occurrences (c :: cs) (cs ++ more) = occurrences (c :: cs) more :=
    occurrences_append_of_avoids (avoids_of_not_mem h)
  rw [hword, List.cons_append, occurrences_cons, if_pos hprefix, hrest, Nat.add_comm]

theorem occurrences_eq (hword : word ≠ "") (h : Begins word n a) :
    occurrences word.toList a.toList = n := by
  have hnil : word.toList.isPrefixOf [] = false := by
    cases hcs : word.toList with
    | nil => exact absurd (String.toList_inj.1 (hcs.trans String.toList_empty.symm)) hword
    | cons c cs => rfl
  have hnothing := h []
  rw [List.append_nil] at hnothing
  rw [hnothing]
  simp [occurrences, hnil]

end Begins

end Counting

def seedLine : Operation → String
  | .mutation => "$util.qr($ctx.stash.put(\"input\", $ctx.args.input))"
  | .query => "$util.qr($ctx.stash.put(\"input\", $ctx.args))"

def fieldLine (key text : String) : String :=
  "$util.qr($ctx.stash.input.put(\"" ++ key ++ "\", " ++ text ++ "))"

theorem rowsText_lines (opening : String) (rs : List (String × Expression)) (last : String) :
    rowsText opening rs ++ last = "\n".intercalate
      (rs.map (fun r => opening ++ r.1 ++ "\", " ++ r.2.text ++ "))") ++ [last]) := by
  have hclose : "))" ++ "\n" = "))\n" := by simp
  induction rs with
  | nil => simp [rowsText]
  | cons r rest ih =>
    rw [List.map_cons, List.cons_append, String.intercalate_cons_of_ne_nil (by simp), ← ih]
    simp only [rowsText, ← hclose, String.append_assoc]

theorem pipelineOf_request_rows (fields : List (String × Expression)) :
    (ResolverTemplates.pipelineOf operation fields).request = seedLine operation ++ "\n" ++
      (rowsText "$util.qr($ctx.stash.input.put(\"" fields ++ "\x7b\x7d") := by
  cases operation <;>
    simp [ResolverTemplates.pipelineOf, pipelineRequest, textIn, segmentsText, text, gap,
      Segment.textIn, Inline.textIn, Context.text, Context.pairs, Context.get?, List.lookup_cons,
      Value.display, pairs_rows, pairsText_rows, ResolverTemplates.seed, seedLine,
      ← String.append_assoc]

theorem pipelineOf_request (operation : Operation) (fields : List (String × Expression)) :
    (ResolverTemplates.pipelineOf operation fields).request = "\n".intercalate
      (seedLine operation :: fields.map (fun r => fieldLine r.1 r.2.text) ++ ["\x7b\x7d"]) := by
  have hrows : rowsText "$util.qr($ctx.stash.input.put(\"" fields ++ "\x7b\x7d" =
      "\n".intercalate (fields.map (fun r => fieldLine r.1 r.2.text) ++ ["\x7b\x7d"]) :=
    rowsText_lines _ fields _
  rw [pipelineOf_request_rows, List.cons_append,
    String.intercalate_cons_of_ne_nil (by simp), ← hrows]

section Generator

theorem Plain.avoids_generator {s : String} (h : Plain s) : Avoids "$util.autoId()" s :=
  h.avoids_marker.longer_word (by decide)

theorem baseText_avoids_generator {value text : String} {kind : ReferenceKind}
    (h : BaseText scope value kind text) : Avoids "$util.autoId()" text := by
  have hinput : Avoids "$util.autoId()" scope.inputBase := by
    cases scope with
    | direct => decide
    | pipeline stored => exact (by decide : Avoids "$util.autoId()" Slot.input.path)
  exact h.byParts (byParts_avoids _) (·.avoids_generator) hinput (fun _ => by decide) (by decide)

theorem generatorCall_begins : Begins "$util.autoId()" 1 "\", $util.autoId())" := by
  have hcall : "\", $util.autoId())" = "\", " ++ ("$util.autoId()" ++ ")") := by simp
  have hself : Begins "$util.autoId()" 1 "$util.autoId()" := .self rfl (by decide)
  rw [hcall]
  exact .before (by decide) (hself.behind (by decide))

theorem resolved_begins {value : String} {e : Expression} (h : resolve value scope = .ok e) :
    Begins "$util.autoId()" (if Contains value "@id" then 1 else 0) e.text := by
  obtain ⟨kind, base, hbase, rfl⟩ := resolve_eq_ok.1 h
  have havoids : Avoids "$util.autoId()" base := baseText_avoids_generator hbase
  by_cases hid : Contains value "@id"
  · have hopen : Avoids "$util.autoId()" "$util.str.toReplace(" := .of_chars (by decide)
    have hquote : Avoids "$util.autoId()" ", \"" := by decide
    have htoken : Avoids "$util.autoId()" idToken := by decide
    rw [if_pos hid, freshText, if_pos (mentionsId_iff.2 hid)]
    exact .before (((hopen.append havoids).append hquote).append htoken) generatorCall_begins
  · rw [if_neg hid, freshText, if_neg (mentionsId_iff.not.2 hid)]
    exact .of_avoids havoids

theorem rowsText_begins {opening : String} (hopening : Avoids "$util.autoId()" opening)
    {entries : List (String × String)} {rs : List (String × Expression)}
    (h : List.Forall₂ (ResolvedEntry scope) entries rs) :
    Begins "$util.autoId()" (entries.countP fun entry => Contains entry.2 "@id")
      (rowsText opening rs) := by
  induction h with
  | nil => exact .of_avoids rfl
  | @cons entry r entries rs hr hrest ih =>
    have hkey : Avoids "$util.autoId()" r.1 := hr.plain.avoids_generator
    have hvalue : Begins "$util.autoId()" (if Contains entry.2 "@id" then 1 else 0) r.2.text :=
      resolved_begins hr.resolve_eq
    have hvalues := hvalue.append (.before (by decide : Avoids _ "))\n") ih)
    rw [List.countP_cons, Nat.add_comm]
    simp only [decide_eq_true_eq]
    exact .before hopening (.before hkey (.before (by decide) hvalues))

end Generator

theorem pipelineOf_generators (operation : Operation) {entries : List (String × String)}
    {fields : List (String × Expression)}
    (h : List.Forall₂ (ResolvedEntry (.pipeline false)) entries fields) :
    occurrences "$util.autoId()".toList
        (ResolverTemplates.pipelineOf operation fields).request.toList =
      entries.countP fun entry => Contains entry.2 "@id" := by
  have hopening : Avoids "$util.autoId()" "$util.qr($ctx.stash.input.put(\"" :=
    .of_chars (by decide)
  have hseed : Avoids "$util.autoId()" (seedLine operation) := by
    cases operation <;> exact .of_chars (by decide)
  apply Begins.occurrences_eq (by decide)
  rw [pipelineOf_request_rows]
  exact .before (hseed.append (by decide)) ((rowsText_begins hopening h).behind (by decide))

/-- The request of a pipeline's resolver is made of the lines of its extra fields in their order, on
which its steps have no influence, and generates as many identifiers as there are values that ask for
one. -/
theorem pipeline_requestLayout {p : Pipeline} {t : ResolverTemplates}
    (h : ResolverTemplates.pipeline p = .ok t) :
    (∃ lines,
      List.Forall₂ (fun entry line => ∃ e, resolve entry.2 (.pipeline false) = .ok e ∧
        line = fieldLine entry.1 e.text) p.extraFields.entries lines ∧
      t.request = "\n".intercalate (seedLine p.operation :: lines ++ ["\x7b\x7d"])) ∧
    (∀ q : Pipeline, q.operation = p.operation → q.extraFields = p.extraFields →
      ResolverTemplates.pipeline q = .ok t) ∧
    occurrences "$util.autoId()".toList t.request.toList =
      p.extraFields.entries.countP fun entry => Contains entry.2 "@id" := by
  obtain ⟨fields, hfields, ht⟩ := ResolverTemplates.pipeline_eq_ok.1 h
  have hrequest := pipelineOf_request p.operation fields
  have hgenerators := pipelineOf_generators p.operation hfields
  rw [ht] at hrequest hgenerators
  refine ⟨?lines, ?same, hgenerators⟩
  case lines =>
    refine ⟨fields.map fun r => fieldLine r.1 r.2.text, ?_, ?_⟩
    · rw [List.forall₂_map_right_iff]
      apply hfields.imp
      intro entry r hr
      exact ⟨r.2, hr.resolve_eq, congrArg (fieldLine · r.2.text) hr.key_eq⟩
    · exact hrequest
  case same =>
    intro q hoperation hextra
    rw [ResolverTemplates.pipeline_eq_ok, hoperation, hextra]
    exact ⟨fields, hfields, ht⟩

def identified : Pipeline := .ofCalls .mutation "share" [
  .mergeExtraFields (.ofList [("sk", "note"), ("by", "$user@id")]),
  .push ⟨"mshareguard0", .guard, "store", "", "", [.input], none, []⟩,
  .mergeExtraFields (.ofList [("sk", "@id_@id"), ("a\n\n)", "\x7b\x7d\n")])]

theorem identified_requestLayout : ∃ t, ResolverTemplates.pipeline identified = .ok t ∧
    identified.steps.length = 1 ∧
    identified.extraFields.entries =
      [("sk", "@id_@id"), ("by", "$user@id"), ("a\n\n)", "\x7b\x7d\n")] ∧
    (∃ lines,
      List.Forall₂ (fun entry line => ∃ e, resolve entry.2 (.pipeline false) = .ok e ∧
        line = fieldLine entry.1 e.text) identified.extraFields.entries lines ∧
      t.request = "\n".intercalate (seedLine identified.operation :: lines ++ ["\x7b\x7d"])) ∧
    occurrences "$util.autoId()".toList t.request.toList =
      identified.extraFields.entries.countP fun entry => Contains entry.2 "@id" := by
  obtain ⟨t, h⟩ := exists_ok_of_isOk (by decide +kernel :
    (ResolverTemplates.pipeline identified).isOk = true)
  obtain ⟨hlines, -, hcount⟩ := pipeline_requestLayout h
  exact ⟨t, h, by decide +kernel, by decide +kernel, hlines, hcount⟩

end ResolverPipeline
