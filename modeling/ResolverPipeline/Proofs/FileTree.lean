import Mathlib.Data.List.Infix
import ResolverPipeline.Files
import ResolverPipeline.Proofs.Outcome

namespace ResolverPipeline.FileTree

variable {t t' : FileTree} {base place other : List String} {path text : String}

section Entries

variable {e : FileEntry}

theorem lookup_filter_ne (h : other ≠ place) (entries : List (List String × FileEntry)) :
    (entries.filter (·.1 ≠ place)).lookup other = entries.lookup other := by
  induction entries with
  | nil => rfl
  | cons entry rest ih =>
    obtain ⟨place', e⟩ := entry
    by_cases hplace : place' = place
    · subst hplace
      rw [List.filter_cons_of_neg (by simp), ih, List.lookup_cons, beq_eq_false_iff_ne.2 h]
    · rw [List.filter_cons_of_pos (by simpa using hplace), List.lookup_cons, List.lookup_cons, ih]

theorem lookup_put_of_ne (h : other ≠ place) :
    (t.put place e).entries.lookup other = t.entries.lookup other := by
  rw [put, List.lookup_cons, beq_eq_false_iff_ne.2 h]
  exact lookup_filter_ne h t.entries

theorem any_put_of_not_prefix (h : ¬ other <+: place) :
    (t.put place e).entries.any (other.isPrefixOf ·.1) = t.entries.any (other.isPrefixOf ·.1) := by
  have hplace : other.isPrefixOf place = false := by
    rwa [← Bool.not_eq_true, List.isPrefixOf_iff_prefix]
  simp only [put, List.any_cons, List.any_filter, hplace, Bool.false_or]
  congr 1
  funext entry
  by_cases heq : entry.1 = place
  · simp [heq, hplace]
  · simp [heq]

@[simp] theorem entry?_put_self : entry? (t.put place e) place = some e := by
  unfold entry?
  rw [put, List.lookup_cons_self]

/-- What is put at a place changes no other, except that it would bring the directories around it. -/
theorem entry?_put_of_ne (hne : other ≠ place)
    (haround : other <+: place → other ≠ [] → t.entry? other = some .directory) :
    entry? (t.put place e) other = t.entry? other := by
  have hlookup : (t.put place e).entries.lookup other = t.entries.lookup other :=
    lookup_put_of_ne hne
  by_cases hway : other <+: place
  · -- What lies on the way is a directory as it was, with an entry of its own or without one.
    by_cases hroot : other = []
    · subst hroot
      unfold entry?
      rw [hlookup]
      rfl
    · have hdirectory : t.entry? other = some .directory := haround hway hroot
      rw [hdirectory]
      unfold entry? at hdirectory ⊢
      rw [hlookup]
      cases hat : t.entries.lookup other with
      | some e' => rwa [hat] at hdirectory
      | none => simp [put, List.isPrefixOf_iff_prefix.2 hway]
  · unfold entry?
    rw [hlookup, any_put_of_not_prefix hway]

end Entries

section Places

inductive Enters (t : FileTree) (name : String) (p : List String) : List String → Prop
  | stay : name = "." → Enters t name p p
  | leave : name = ".." → Enters t name p p.dropLast
  | down : name ≠ "." → name ≠ ".." → t.entry? (p ++ [name]) = some .directory →
      Enters t name p (p ++ [name])

variable {p q : List String} {name : String} {names : List String}

theorem enter_eq_ok : t.enter p name = .ok q ↔
    ¬ maxName < name.utf8ByteSize ∧ t.Enters name p q := by
  constructor
  · intro h
    unfold enter at h
    split at h
    · cases h
    · refine ⟨by assumption, ?_⟩
      split at h
      · cases h
        exact .stay (by assumption)
      · split at h
        · cases h
          exact .leave (by assumption)
        · split at h
          · cases h
          · cases h
          · cases h
            exact .down (by assumption) (by assumption) (by assumption)
  · rintro ⟨hshort, h⟩
    unfold enter
    rw [if_neg hshort]
    cases h with
    | stay hname => simp [hname]
    | leave hname => simp [hname]
    | down hdot hdots hdirectory => simp [hdot, hdots, hdirectory]

def Reaches (t : FileTree) (place : List String) : Prop :=
  ∀ p, p <+: place → p ≠ [] → t.entry? p = some .directory

theorem reaches_root (t : FileTree) : t.Reaches [] := fun _ hp hroot =>
  absurd (List.prefix_nil.1 hp) hroot

theorem Reaches.above (h : t.Reaches place) (hp : other <+: place) : t.Reaches other :=
  fun p hpo => h p (hpo.trans hp)

theorem Enters.reaches (h : t.Enters name p q) (hp : t.Reaches p) : t.Reaches q := by
  cases h with
  | stay => exact hp
  | leave => exact hp.above (List.dropLast_prefix p)
  | down _ _ hdirectory =>
    intro r hr hroot
    obtain rfl | hr := List.prefix_concat_iff.1 hr
    · exact hdirectory
    · exact hp r hr hroot

theorem Enters.mono (h : t.Enters name p q)
    (hstay : ∀ p, t.entry? p = some .directory → t'.entry? p = some .directory) :
    t'.Enters name p q := by
  cases h with
  | stay hname => exact .stay hname
  | leave hname => exact .leave hname
  | down hdot hdots hdirectory => exact .down hdot hdots (hstay _ hdirectory)

theorem walk_reaches (h : names.foldlM t.enter p = .ok q) (hp : t.Reaches p) : t.Reaches q := by
  induction names generalizing p with
  | nil =>
    cases h
    exact hp
  | cons name rest ih =>
    rw [List.foldlM_cons, bind_eq_ok] at h
    obtain ⟨next, hnext, hrest⟩ := h
    exact ih hrest ((enter_eq_ok.1 hnext).2.reaches hp)

theorem walk_mono (hstay : ∀ p, t.entry? p = some .directory → t'.entry? p = some .directory)
    (h : names.foldlM t.enter p = .ok q) : names.foldlM t'.enter p = .ok q := by
  induction names generalizing p with
  | nil => exact h
  | cons name rest ih =>
    rw [List.foldlM_cons, bind_eq_ok] at h ⊢
    obtain ⟨next, hnext, hrest⟩ := h
    obtain ⟨hshort, hname⟩ := enter_eq_ok.1 hnext
    exact ⟨next, enter_eq_ok.2 ⟨hshort, hname.mono hstay⟩, ih hrest⟩

structure Spells (path : String) (way : List String) (last : String) : Prop where
  no_zero : '\x00' ∉ path.toList
  path_short : ¬ maxPath < path.utf8ByteSize
  names_eq : FileTree.names path = way ++ [last]
  last_named : ¬ (last = "." ∨ last = "..")
  last_short : ¬ maxName < last.utf8ByteSize

theorem locate_eq_some : t.locate base path = .ok (some place) ↔
    ∃ way last p, Spells path way last ∧ (start base path ++ way).foldlM t.enter [] = .ok p ∧
      place = p ++ [last] := by
  constructor
  · intro h
    unfold locate at h
    split at h
    · cases h
    · split at h
      · cases h
      · split at h
        · split at h <;> cases h
        · obtain ⟨parent, hwalk, h⟩ := bind_eq_ok.1 h
          split at h
          · cases h
          · split at h
            · cases h
            · cases h
              rename_i hzero hpath _ last before hnames hdots hlast
              have hnames : FileTree.names path = before.reverse ++ [last] := by
                rw [← List.reverse_cons, ← hnames, List.reverse_reverse]
              have hdots : ¬ (last = "." ∨ last = "..") := by simpa using hdots
              exact ⟨before.reverse, last, parent, ⟨hzero, hpath, hnames, hdots, hlast⟩, hwalk, rfl⟩
  · rintro ⟨way, last, p, hpath, hwalk, rfl⟩
    have hdots : ¬ (decide (last = ".") || decide (last = "..")) = true := by
      simpa using hpath.last_named
    rw [locate, if_neg hpath.no_zero, if_neg hpath.path_short, hpath.names_eq, List.reverse_concat]
    dsimp only
    rw [List.reverse_reverse]
    apply bind_eq_ok.2
    refine ⟨p, hwalk, ?_⟩
    rw [if_neg hdots, if_neg hpath.last_short]

theorem locate_around (h : t.locate base path = .ok (some place)) (hway : other <+: place)
    (hne : other ≠ place) (hroot : other ≠ []) : t.entry? other = some .directory := by
  obtain ⟨way, last, p, -, hwalk, rfl⟩ := locate_eq_some.1 h
  have hp : t.Reaches p := walk_reaches hwalk t.reaches_root
  obtain h | h := List.prefix_concat_iff.1 hway
  · exact absurd h hne
  · exact hp other h hroot

end Places

section Writing

theorem write_eq_ok : t.write base path text = .ok t' ↔
    ∃ place, t.locate base path = .ok (some place) ∧ t.entry? place ≠ some .directory ∧
      namesDirectory path = false ∧ t' = t.put place (.file text.toUTF8) := by
  rw [write, bind_eq_ok]
  constructor
  · rintro ⟨found, hfound, h⟩
    cases found with
    | none => cases h
    | some place =>
      dsimp only at h
      split at h
      · cases h
      all_goals
        rename_i hfile
        split at h
        · cases h
        · rename_i hpath
          cases h
          exact ⟨place, hfound, by simp [hfile], by simpa using hpath, rfl⟩
  · rintro ⟨place, hfound, hfile, hpath, rfl⟩
    refine ⟨some place, hfound, ?_⟩
    dsimp only
    split
    · exact absurd (by assumption) hfile
    · rw [hpath]
      rfl
    · rw [hpath]
      rfl

/-- That the text went to the place that the path names, and nothing else changed. -/
structure Wrote (t : FileTree) (base : List String) (path text : String) (place : List String)
    (t' : FileTree) : Prop where
  locate_eq : t.locate base path = .ok (some place)
  content : t'.entry? place = some (.file text.toUTF8)
  others : ∀ other, other ≠ place → t'.entry? other = t.entry? other
  read_eq : t'.read base path = .ok text

theorem fromUTF8?_toUTF8 (text : String) : String.fromUTF8? text.toUTF8 = some text :=
  dif_pos text.isValidUTF8

theorem exists_wrote (h : t.write base path text = .ok t') :
    ∃ place, t.Wrote base path text place t' := by
  obtain ⟨place, hlocate, hfile, hpath, rfl⟩ := write_eq_ok.1 h
  have hothers : ∀ other, other ≠ place →
      entry? (t.put place (.file text.toUTF8)) other = t.entry? other := by
    intro other hne
    exact entry?_put_of_ne hne fun hway hroot => locate_around hlocate hway hne hroot
  -- The place was no directory, so the way to it does not lead through it and is as open as before.
  have hstay : ∀ p, t.entry? p = some .directory →
      entry? (t.put place (.file text.toUTF8)) p = some .directory := by
    intro p hp
    rw [hothers p, hp]
    rintro rfl
    exact hfile hp
  have hlocate' : (t.put place (.file text.toUTF8)).locate base path = .ok (some place) := by
    obtain ⟨way, last, p, hspells, hwalk, hplace⟩ := locate_eq_some.1 hlocate
    exact locate_eq_some.2 ⟨way, last, p, hspells, walk_mono hstay hwalk, hplace⟩
  refine ⟨place, hlocate, entry?_put_self, hothers, ?_⟩
  rw [read, hlocate', except_ok_bind, Option.map_some, entry?_put_self]
  dsimp only
  rw [hpath, fromUTF8?_toUTF8]
  rfl

end Writing

end ResolverPipeline.FileTree
