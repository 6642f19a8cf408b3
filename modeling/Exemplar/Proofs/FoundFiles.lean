import Exemplar.Discovery
import Exemplar.Proofs.PathText
import Exemplar.Proofs.Tables
import Mathlib.Data.Char
import Mathlib.Data.List.Lex
import Mathlib.Order.RelClasses

/-! The files with an extension below a folder: what is selected are exactly the files whose last name
ends in the extension, each of them once, in the order of the names on the way. -/
namespace Exemplar

namespace Assoc

variable {κ α : Type} [BEq κ] [LawfulBEq κ]

/-- If all entries with one key agree, writing them loses nothing. -/
theorem mem_ofEntries {entries : List (κ × α)}
    (hagree : ∀ k a b, (k, a) ∈ entries → (k, b) ∈ entries → a = b) {k : κ} {a : α} :
    (k, a) ∈ ofEntries entries ↔ (k, a) ∈ entries := by
  classical
  have hget : get? (ofEntries entries) k = some a ↔ (k, a) ∈ entries := by
    rw [get?_ofEntries, Option.map_eq_some_iff]
    constructor
    · rintro ⟨⟨k', a'⟩, hlast, rfl⟩
      obtain ⟨hmem, hkey⟩ := List.mem_filter.mp (List.mem_of_getLast? hlast)
      obtain rfl : k' = k := of_decide_eq_true hkey
      exact hmem
    · intro hmem
      have hfilter : (k, a) ∈ entries.filter fun e => e.1 = k :=
        List.mem_filter.mpr ⟨hmem, decide_eq_true rfl⟩
      obtain ⟨e, hlast⟩ := Option.isSome_iff_exists.mp
        (List.getLast?_isSome.mpr (List.ne_nil_of_mem hfilter))
      obtain ⟨hlater, hkey⟩ := List.mem_filter.mp (List.mem_of_getLast? hlast)
      obtain rfl : e.1 = k := of_decide_eq_true hkey
      exact ⟨e, hlast, hagree _ _ _ hlater hmem⟩
  rw [← hget]
  constructor
  · exact get?_of_mem (nodup_keys_ofEntries entries)
  · intro h
    obtain ⟨k', hmem, hkey⟩ := get?_mem h
    rwa [← eq_of_beq hkey]

end Assoc

namespace Glob

theorem covers_chars (cs s : List Char) : covers (cs.map .char) s = true ↔ s = cs := by
  induction cs generalizing s with
  | nil => simp [covers]
  | cons c cs ih => cases s <;> simp [covers, fits, ih]

/-- A star and characters behind it stand for the names that end in these characters. -/
theorem covers_suffix (cs s : List Char) :
    covers (.anyRun :: cs.map .char) s = true ↔ cs <:+ s := by
  induction s with
  | nil => rw [covers, covers_chars, List.suffix_nil, eq_comm]
  | cons c s ih => rw [covers, Bool.or_eq_true, covers_chars, ih, List.suffix_cons_iff, eq_comm]

end Glob

namespace FileTree

variable {t found : FileTree} {way front : List String} {name : String} {data : List UInt8}

/-- Names lead from a tree to a tree in it. -/
inductive Leads : FileTree → List String → FileTree → Prop
  | here {t : FileTree} : Leads t [] t
  | enter {es : List (String × FileTree)} {name : String} {t found : FileTree} {way : List String}
    (hname : (name, t) ∈ es) (hrest : Leads t way found) : Leads (.folder es) (name :: way) found

/-- The entries of each folder have different names, and no name has a slash in it. -/
inductive Proper : FileTree → Prop
  | file {data : List UInt8} : Proper (.file data)
  | folder {es : List (String × FileTree)} (hnames : (Assoc.keys es).Nodup)
    (hslash : ∀ e ∈ es, '/' ∉ e.1.toList) (hbelow : ∀ e ∈ es, Proper e.2) : Proper (.folder es)

theorem Leads.unique {other : FileTree} (ht : t.Proper) (h : Leads t way found)
    (h' : Leads t way other) : found = other := by
  induction h with
  | here =>
    cases h'
    rfl
  | @enter es name t found way hname hrest ih =>
    cases ht with
    | folder hnames hslash hbelow =>
      cases h' with
      | @enter _ _ t' _ _ hname' hrest' =>
        have hsame := (Assoc.get?_of_mem hnames hname).symm.trans (Assoc.get?_of_mem hnames hname')
        obtain rfl := Option.some.inj hsame
        exact ih (hbelow _ hname) hrest'

theorem Leads.slash (ht : t.Proper) (h : Leads t way found) : ∀ n ∈ way, '/' ∉ n.toList := by
  induction h with
  | here => simp
  | enter hname hrest ih =>
    cases ht with
    | folder hnames hslash hbelow =>
      rintro n (_ | ⟨_, hn⟩)
      · exact hslash _ hname
      · exact ih (hbelow _ hname) n hn

theorem leads_append_singleton :
    Leads t (front ++ [name]) found ↔ ∃ es, Leads t front (.folder es) ∧ (name, found) ∈ es := by
  constructor
  · intro h
    induction front generalizing t with
    | nil =>
      cases h with
      | enter hname hrest =>
        cases hrest
        exact ⟨_, .here, hname⟩
    | cons n front ih =>
      cases h with
      | enter hname hrest =>
        obtain ⟨es, hfront, hlast⟩ := ih hrest
        exact ⟨es, .enter hname hfront, hlast⟩
  · rintro ⟨es, hfront, hlast⟩
    generalize hfolder : FileTree.folder es = folder at hfront
    induction hfront with
    | here =>
      subst hfolder
      exact .enter hlast .here
    | enter hname _ ih => exact .enter hname (ih hfolder)

mutual
theorem leads_of_folders (above : List FileTree) :
    (t : FileTree) → ∀ f ∈ folders above t, ∃ es, f.2.2 = .folder es ∧ Leads t f.1 (.folder es)
  | .file _ => by simp [folders]
  | .folder es => by
    rw [folders]
    rintro f (_ | ⟨_, hf⟩)
    · exact ⟨es, rfl, .here⟩
    · obtain ⟨name, t, way, inner, hway, hname, hinner, hrest⟩ :=
        leads_of_entryFolders (.folder es :: above) es f hf
      rw [hway]
      exact ⟨inner, hinner, .enter hname hrest⟩
theorem leads_of_entryFolders (above : List FileTree) :
    (es : List (String × FileTree)) → ∀ f ∈ entryFolders above es,
      ∃ name t way inner, f.1 = name :: way ∧ (name, t) ∈ es ∧ f.2.2 = .folder inner ∧
        Leads t way (.folder inner)
  | [] => by simp [entryFolders]
  | (_, .file _) :: rest => by
    rw [entryFolders]
    intro f hf
    obtain ⟨name, t, way, inner, hway, hname, hfound⟩ := leads_of_entryFolders above rest f hf
    exact ⟨name, t, way, inner, hway, List.mem_cons_of_mem _ hname, hfound⟩
  | (name, .folder es) :: rest => by
    rw [entryFolders]
    intro f hf
    rcases List.mem_append.mp hf with hf | hf
    · obtain ⟨g, hg, rfl⟩ := List.mem_map.mp hf
      obtain ⟨inner, hinner, hleads⟩ := leads_of_folders above (.folder es) g hg
      exact ⟨name, .folder es, g.1, inner, rfl, List.mem_cons_self, hinner, hleads⟩
    · obtain ⟨name, t, way, inner, hway, hname, hfound⟩ := leads_of_entryFolders above rest f hf
      exact ⟨name, t, way, inner, hway, List.mem_cons_of_mem _ hname, hfound⟩
end

theorem mem_entryFolders {above : List FileTree} {es inner : List (String × FileTree)}
    {more : List FileTree × FileTree} (hname : (name, .folder inner) ∈ es)
    (hway : (way, more) ∈ folders above (.folder inner)) :
    (name :: way, more) ∈ entryFolders above es := by
  induction es with
  | nil => cases hname
  | cons e es ih =>
    rcases List.mem_cons.mp hname with rfl | hlater
    · rw [entryFolders]
      exact List.mem_append_left _ (List.mem_map.mpr ⟨_, hway, rfl⟩)
    · obtain ⟨n, _ | inner⟩ := e
      · rw [entryFolders]
        exact ih hlater
      · rw [entryFolders]
        exact List.mem_append_right _ (ih hlater)

theorem mem_folders (above : List FileTree) {es : List (String × FileTree)}
    (h : Leads t way (.folder es)) : ∃ outer, (way, outer, .folder es) ∈ folders above t := by
  generalize hfolder : FileTree.folder es = folder at h
  induction h generalizing above with
  | here =>
    subst hfolder
    rw [folders]
    exact ⟨above, List.mem_cons_self⟩
  | @enter es' name t found way hname hrest ih =>
    obtain ⟨outer, hmem⟩ := ih (.folder es' :: above) hfolder
    refine ⟨outer, ?_⟩
    rw [folders]
    cases t with
    | file data =>
      rw [folders] at hmem
      cases hmem
    | folder inner => exact List.mem_cons_of_mem _ (mem_entryFolders hname hmem)

theorem mem_select_named (g : Glob) (above : List FileTree) {es : List (String × FileTree)} :
    (way, data) ∈ select [.named g] above (.folder es) ↔
      ∃ name, way = [name] ∧ g.covers name.toList = true ∧ (name, .file data) ∈ es := by
  rw [select, List.mem_flatMap]
  constructor
  · rintro ⟨⟨name, found⟩, hname, hfile⟩
    dsimp only at hfile
    split at hfile
    · next hcovers =>
      obtain ⟨⟨more, data'⟩, hmore, heq⟩ := List.mem_map.mp hfile
      cases found with
      | folder _ => simp [select] at hmore
      | file _ =>
        rw [select, List.mem_singleton] at hmore
        cases hmore
        cases heq
        exact ⟨name, rfl, hcovers, hname⟩
    · cases hfile
  · rintro ⟨name, rfl, hcovers, hname⟩
    refine ⟨_, hname, ?_⟩
    dsimp only
    rw [if_pos hcovers, select]
    exact List.mem_singleton_self _

/-- Below any folders, the files with a name of a form are selected. -/
theorem mem_select (g : Glob) :
    (way, data) ∈ select [.anywhere, .named g] [] t ↔
      ∃ front name, way = front ++ [name] ∧ g.covers name.toList = true ∧
        Leads t way (.file data) := by
  rw [select, List.mem_flatMap]
  constructor
  · rintro ⟨⟨front, above, folder⟩, hfolder, hfile⟩
    obtain ⟨⟨more, data'⟩, hmore, heq⟩ := List.mem_map.mp hfile
    obtain ⟨es, rfl, hleads⟩ := leads_of_folders [] t _ hfolder
    obtain ⟨name, rfl, hcovers, hname⟩ := (mem_select_named g above).mp hmore
    cases heq
    exact ⟨front, name, rfl, hcovers, leads_append_singleton.mpr ⟨es, hleads, hname⟩⟩
  · rintro ⟨front, name, rfl, hcovers, hleads⟩
    obtain ⟨es, hfront, hname⟩ := leads_append_singleton.mp hleads
    obtain ⟨outer, hfolder⟩ := mem_folders [] hfront
    have hlast := (mem_select_named g outer).mpr ⟨name, rfl, hcovers, hname⟩
    exact ⟨_, hfolder, List.mem_map.mpr ⟨_, hlast, rfl⟩⟩

/-- Each file is selected once. -/
theorem mem_selectOnce (ht : t.Proper) (g : Glob) :
    (way, data) ∈ selectOnce [.anywhere, .named g] t ↔
      (way, data) ∈ select [.anywhere, .named g] [] t := by
  refine Assoc.mem_ofEntries fun way data data' h h' => ?_
  obtain ⟨_, _, _, _, hleads⟩ := (mem_select g).mp h
  obtain ⟨_, _, _, _, hleads'⟩ := (mem_select g).mp h'
  exact FileTree.file.inj (hleads.unique ht hleads')

end FileTree

namespace Discovery

open FileTree

variable {t : FileTree} {e : String} {f g : List String × List UInt8}

def HasExtension (e : String) (way : List String) : Prop :=
  ∃ front base, way = front ++ [base ++ "." ++ e]

/-- One way comes before another: the names are compared one by one, and each by its characters. -/
def Before (a b : List String) : Prop :=
  List.Lex (List.Lex (· < ·)) (a.map String.toList) (b.map String.toList)

/-- Some files are all those of a tree that have an extension, in order. The order is strict, so no
file comes twice. -/
structure AllFiles (t : FileTree) (e : String) (files : List (List String × List UInt8)) : Prop where
  mem_iff : ∀ way data, (way, data) ∈ files ↔ Leads t way (.file data) ∧ HasExtension e way
  sorted : files.Pairwise fun f g => Before f.1 g.1

def Literal (e : String) : Prop := ∀ c ∈ e.toList, c ∉ ['*', '?', '[', '/']

theorem ofText_chars {s : List Char} (hs : ∀ c ∈ s, c ∉ ['*', '?', '[', '/']) :
    Glob.ofText s = s.map .char := by
  induction s with
  | nil => simp [Glob.ofText]
  | cons c s ih =>
    have hc := hs c List.mem_cons_self
    simp only [List.mem_cons, not_or] at hc
    rw [Glob.ofText, ih fun d hd => hs d (List.mem_cons_of_mem _ hd)]
    · rfl
    all_goals tauto

theorem Literal.star_dot (he : Literal e) : ∀ c ∈ '.' :: e.toList, c ∉ ['*', '?', '[', '/'] := by
  rintro c (_ | ⟨_, hc⟩)
  · decide
  · exact he c hc

theorem hasDoubleStar_literal {s : List Char} (hs : ∀ c ∈ s, c ∉ ['*', '?', '[', '/']) :
    GlobStep.hasDoubleStar s = false := by
  induction s with
  | nil => rfl
  | cons c s ih =>
    rw [GlobStep.hasDoubleStar]
    · exact ih fun d hd => hs d (List.mem_cons_of_mem _ hd)
    · rintro s' rfl
      exact absurd (hs '*' List.mem_cons_self) (by decide)

theorem steps?_literal (he : Literal e) :
    steps? e = some [.anywhere, .named (.anyRun :: ('.' :: e.toList).map .char)] := by
  have hchars : ("*." ++ e).toList = '*' :: '.' :: e.toList := String.toList_append
  rw [steps?]
  generalize "*." ++ e = name at hchars
  have hslash : '/' ∉ name.toList := by
    rw [hchars]
    rintro (_ | ⟨_, h⟩)
    exact he.star_dot _ h (by decide)
  have hplain : name ≠ "" ∧ name ≠ "." ∧ name ≠ "**" := by
    refine ⟨?_, ?_, ?_⟩ <;> rintro rfl <;> simp at hchars
  have hnames : (Path.ofText name).names = [name] := by
    rw [Path.ofText, Path.cut_of_notMem hslash]
    simp [hplain]
  have hdouble : GlobStep.hasDoubleStar ('*' :: '.' :: e.toList) = false := by
    rw [GlobStep.hasDoubleStar]
    · exact hasDoubleStar_literal he.star_dot
    · simp
  have hstep : GlobStep.ofText? name =
      some (.named (.anyRun :: ('.' :: e.toList).map .char)) := by
    rw [GlobStep.ofText?, if_neg hplain.2.2, hchars, if_neg (by simp [hdouble]), if_pos (by simp),
      Glob.ofText, ofText_chars he.star_dot]
  rw [hnames]
  simp [hstep]

theorem lex_iff (x y : List Char) : x.lex y = true ↔ List.Lex (· < ·) x y := by
  rw [List.lex_eq_true_iff_lex]
  simp only [decide_eq_true_eq]

theorem precedes_iff : precedes f g = true ↔ ¬ Before g.1 f.1 := by
  rw [precedes, Bool.not_eq_true', Bool.eq_false_iff, ne_eq, List.lex_eq_true_iff_lex]
  simp only [lex_iff]
  rfl

theorem endsWith_slash_literal (he : Literal e) : e.endsWith "/" = false := by
  rw [String.endsWith_eq_endsWith_toSlice, Bool.eq_false_iff, ne_eq,
    String.Slice.endsWith_string_iff]
  intro hsuffix
  have hmem : '/' ∈ e.toList := by simpa using hsuffix.subset (List.mem_singleton_self '/')
  exact he _ hmem (by decide)

theorem hasExtension_iff {front : List String} {name : String} :
    HasExtension e (front ++ [name]) ↔ '.' :: e.toList <:+ name.toList := by
  constructor
  · rintro ⟨front', base, h⟩
    obtain ⟨-, hname⟩ := List.append_inj' h rfl
    obtain rfl := List.singleton_inj.mp hname
    exact ⟨base.toList, by simp⟩
  · rintro ⟨cs, h⟩
    refine ⟨front, String.ofList cs, ?_⟩
    congr 2
    rw [← String.toList_inj, ← h]
    simp

theorem not_before_of_before {a b : List String} (h : Before a b) : ¬ Before b a :=
  Std.Asymm.asymm (r := List.Lex (List.Lex (· < ·))) _ _ h

theorem before_or_before {a c : List String} (h : Before a c) (b : List String) :
    Before a b ∨ Before b c :=
  IsOrderConnected.conn _ (b.map String.toList) _ h

theorem eq_of_not_before {a b : List String} (h : ¬ Before a b) (h' : ¬ Before b a) : a = b :=
  List.map_injective_iff.mpr (fun _ _ => String.toList_inj.mp)
    (Std.Trichotomous.trichotomous (r := List.Lex (List.Lex (· < ·))) _ _ h h')

theorem sorted_mergeSort {files : List (List String × List UInt8)}
    (hdifferent : (Assoc.keys files).Nodup) :
    (files.mergeSort precedes).Pairwise fun f g => Before f.1 g.1 := by
  have hordered : (files.mergeSort precedes).Pairwise fun f g => precedes f g = true := by
    apply List.pairwise_mergeSort
    · intro f g k h h'
      rw [precedes_iff] at h h' ⊢
      intro hback
      rcases before_or_before hback g.1 with hlater | hearlier
      · exact h' hlater
      · exact h hearlier
    · intro f g
      rw [Bool.or_eq_true, precedes_iff, precedes_iff, ← not_and_or]
      exact fun h => not_before_of_before h.1 h.2
  have hapart : (files.mergeSort precedes).Pairwise fun f g => f.1 ≠ g.1 :=
    List.pairwise_map.mp (((files.mergeSort_perm precedes).map Prod.fst).nodup_iff.mpr hdifferent)
  refine (hordered.and hapart).imp fun {f g} h => ?_
  by_contra hbefore
  exact h.2 (eq_of_not_before hbefore (precedes_iff.mp h.1))

/-- The files that are found with an extension are all those that have it. -/
theorem allFiles_filesWith (ht : t.Proper) (he : Literal e) :
    ∃ files, filesWith t e = .ok files ∧ AllFiles t e files := by
  rw [filesWith, steps?_literal he]
  dsimp only
  rw [endsWith_slash_literal he]
  refine ⟨_, rfl, ⟨fun way data => ?_, ?_⟩⟩
  · rw [if_neg Bool.false_ne_true, List.mem_mergeSort, mem_selectOnce ht, mem_select]
    constructor
    · rintro ⟨front, name, rfl, hcovers, hleads⟩
      exact ⟨hleads, hasExtension_iff.mpr ((Glob.covers_suffix _ _).mp hcovers)⟩
    · rintro ⟨hleads, front, base, rfl⟩
      exact ⟨front, _, rfl,
        (Glob.covers_suffix _ _).mpr (hasExtension_iff.mp ⟨front, base, rfl⟩), hleads⟩
  · rw [if_neg Bool.false_ne_true]
    exact sorted_mergeSort (Assoc.nodup_keys_ofEntries _)

end Discovery
end Exemplar
