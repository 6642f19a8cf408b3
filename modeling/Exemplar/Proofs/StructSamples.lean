import Exemplar.Proofs.SameNames

/-! Samples of structs. What an entry of a map defines is found among what the map defines, and what
stands around it does not depend on it. -/
namespace Exemplar
open Json

namespace Json

/-- The entry under a key, and how another value is written there. -/
theorem split_found {entries : List (Scalar × Json)} {key : String} {v : Json}
    (h : Assoc.get? entries (.str key) = some v) : ∃ pre post,
      entries = pre ++ (.str key, v) :: post ∧ (∀ e ∈ pre, e.1 ≠ .str key) ∧
        ∀ v', Assoc.insert entries (.str key) v' = pre ++ (.str key, v') :: post := by
  induction entries with
  | nil => cases h
  | cons e entries ih =>
    rw [Assoc.get?] at h
    by_cases hkey : (e.1 == Scalar.str key) = true
    · rw [if_pos hkey] at h
      obtain rfl := Option.some.inj h
      have he : e.1 = .str key := eq_str_of_same hkey
      refine ⟨[], entries, ?_, List.forall_mem_nil _, fun v' => ?_⟩
      · rw [← he]
        rfl
      · rw [Assoc.insert, if_pos hkey, he]
        rfl
    · rw [if_neg hkey] at h
      obtain ⟨pre, post, hentries, hpre, hinsert⟩ := ih h
      refine ⟨e :: pre, post, by rw [hentries]; rfl, ?_, fun v' => ?_⟩
      · refine List.forall_mem_cons.mpr ⟨fun he => hkey ?_, hpre⟩
        rw [he]
        exact (same_str key key).mpr rfl
      · rw [Assoc.insert, if_neg hkey, hinsert]
        rfl

theorem IsDocument.found {p : Scalar → Prop} {entries : List (Scalar × Json)} {key : Scalar}
    {v : Json} (hv : IsDocument p (.map entries)) (h : Assoc.get? entries key = some v) :
    IsDocument p v := by
  obtain ⟨place, hmem, -⟩ := Assoc.get?_mem h
  cases hv with
  | map names once parts => exact parts _ hmem

end Json

namespace Inference
open TypeTable

/-- A map with neither the values of an enum nor a marked value defines a struct. -/
structure IsStruct (m : Markers) (entries : List (Scalar × Json)) : Prop where
  noEnum : Markers.value? m.enumKey entries = none
  noMapOf : Markers.value? m.mapOfKey entries = none

def fieldPlace (m : Markers) (entries : List (Scalar × Json)) (name : String) (key : Scalar) :
    String :=
  Name.member name (((NameTable.ofKeys Identifier.ofText
    ((Assoc.keys entries).filter m.isField)).name? key).getD "")

variable {c c' : Context} {s s' : AliasScope} {name key : String} {v v' : Json}
  {entries entries' : List (Scalar × Json)}

theorem entriesAlike_insert (h : Assoc.get? entries (.str key) = some v) (hv : v.Alike v') :
    EntriesAlike entries (Assoc.insert entries (.str key) v') := by
  obtain ⟨pre, post, hentries, -, hinsert⟩ := split_found h
  rw [hinsert, hentries]
  exact List.rel_append (EntriesAlike.refl pre) (.cons ⟨rfl, hv⟩ (EntriesAlike.refl post))

theorem IsStruct.alike {m : Markers} (h : IsStruct m entries) (halike : EntriesAlike entries entries') :
    IsStruct m entries' := by
  have hnone {marker : Option Scalar} (hmarker : Markers.value? marker entries = none) :
      Markers.value? marker entries' = none := by
    have hsame := halike.value?_isSome marker
    rw [hmarker] at hsame
    exact Option.isSome_eq_false_iff.mp hsame |> Option.isNone_iff_eq_none.mp
  exact ⟨hnone h.noEnum, hnone h.noMapOf⟩

theorem ofValue_struct (h : IsStruct c.markers entries) :
    ofValue c s name (.map entries) =
      (ofAliases c (s.push []) name entries).1 ++
        ofFields c (ofAliases c (s.push []) name entries).2 name (fieldNames c entries) entries ++
          [{ name, source := c.source,
             shape := .struct (fieldsOf c entries)
               (ofAliases c (s.push []) name entries).2.snapshot }] := by
  rw [ofValue, assembleMap, h.noEnum, h.noMapOf]
  rfl

theorem ofAliases_found (hkey : c.markers.aliasesKey = some (.str key))
    (h : Assoc.get? entries (.str key) = some v) :
    ofAliases c s name entries = ofAliasBlock (c.inside (.str key)) s name v := by
  induction entries with
  | nil => cases h
  | cons e entries ih =>
    obtain ⟨key', v'⟩ := e
    rw [Assoc.get?] at h
    rw [ofAliases, hkey, Option.any_some]
    by_cases hsame : (key' == Scalar.str key) = true
    · rw [if_pos hsame] at h ⊢
      obtain rfl := Option.some.inj h
      rw [eq_str_of_same hsame]
    · rw [if_neg hsame] at h ⊢
      exact ih h

theorem ofAliases_absent (hkey : c.markers.aliasesKey = some (.str key))
    (h : Assoc.get? entries (.str key) = none) : ofAliases c s name entries = ([], s) := by
  induction entries with
  | nil => rw [ofAliases]
  | cons e entries ih =>
    obtain ⟨key', v'⟩ := e
    rw [Assoc.get?] at h
    rw [ofAliases, hkey, Option.any_some]
    by_cases hsame : (key' == Scalar.str key) = true
    · rw [if_pos hsame] at h
      cases h
    · rw [if_neg hsame] at h ⊢
      exact ih h

/-- The entries of the alias block of a map. Without a block there are none. -/
def ownBlock (options : Options) (entries : List (Scalar × Json)) : List (Scalar × Json) :=
  match Assoc.get? entries (.str options.aliasesKey) with
  | some (.map block) => block
  | _ => []

/-- An alias block that is no map counts as one without entries. -/
theorem ofAliases_eq {options : Options}
    (hkey : c.markers.aliasesKey = some (.str options.aliasesKey)) :
    ofAliases c s name entries =
      ofAliasEntries (c.inside (.str options.aliasesKey)) s name (ownBlock options entries) := by
  cases hfound : Assoc.get? entries (.str options.aliasesKey) with
  | none =>
    rw [ofAliases_absent hkey hfound, ownBlock, hfound, ofAliasEntries]
  | some v =>
    rw [ofAliases_found hkey hfound, ownBlock, hfound]
    cases v with
    | scalar x =>
      rw [ofAliasBlock, ofAliasEntries]
      simp
    | list items =>
      rw [ofAliasBlock, ofAliasEntries]
      simp
    | map block => rw [ofAliasBlock]

/-- The scope in which the fields of a struct are met. -/
theorem scope_ofAliases {options : Options}
    (hkey : c.markers.aliasesKey = some (.str options.aliasesKey)) :
    (ofAliases c (s.push []) name entries).2 =
      s.push (blockTable s name [] (ownBlock options entries)) := by
  rw [ofAliases_eq hkey, scope_ofAliasEntries]

theorem names_ownBlock (options : Options) {p : Scalar → Prop} (h : IsDocument p (.map entries)) :
    ∀ e ∈ ownBlock options entries, ∃ a, e.1 = .str a := by
  rw [ownBlock]
  split
  · next block hfound =>
    cases h.found hfound with
    | map names once parts => exact names
  · simp

theorem isDocument_ownBlock (options : Options) {p : Scalar → Prop}
    (h : IsDocument p (.map entries)) :
    ∀ e ∈ ownBlock options entries, IsDocument p e.2 := by
  rw [ownBlock]
  split
  · next block hfound =>
    cases h.found hfound with
    | map names once parts => exact parts
  · simp

theorem ofMarked_found (hkey : c.markers.mapOfKey = some (.str key))
    (h : Assoc.get? entries (.str key) = some v) :
    ofMarked c s name entries = ofValue (c.inside (.str key)) s name v := by
  induction entries with
  | nil => cases h
  | cons e entries ih =>
    obtain ⟨key', v'⟩ := e
    rw [Assoc.get?] at h
    rw [ofMarked, hkey, Option.any_some]
    by_cases hsame : (key' == Scalar.str key) = true
    · rw [if_pos hsame] at h ⊢
      obtain rfl := Option.some.inj h
      rw [eq_str_of_same hsame]
    · rw [if_neg hsame] at h ⊢
      exact ih h

theorem ofValue_marked {options : Options} (hm : c.markers = .ofOptions options)
    (noEnum : Markers.value? (some (.str options.enumKey)) entries = none)
    (found : Assoc.get? entries (.str options.mapOfKey) = some v) (hfull : v.isNull = false) :
    ofValue c s name (.map entries) = ofValue (c.inside (.str options.mapOfKey)) s name v := by
  have hmarked : Markers.value? (some (.str options.mapOfKey)) entries = some v := by
    rw [Markers.value?, Option.bind_some, found, Option.filter_some, hfull]
    rfl
  have hkey : c.markers.mapOfKey = some (.str options.mapOfKey) := by
    rw [hm]
    rfl
  have hnoEnum : Markers.value? c.markers.enumKey entries = none := by
    rw [hm]
    exact noEnum
  rw [ofValue, assembleMap, hnoEnum, hkey, hmarked]
  exact ofMarked_found hkey found

theorem ofFields_append (c : Context) (s : AliasScope) (name : String) (table : NameTable)
    (pre post : List (Scalar × Json)) : ofFields c s name table (pre ++ post) =
      ofFields c s name table pre ++ ofFields c s name table post := by
  induction pre with
  | nil =>
    rw [ofFields]
    rfl
  | cons e pre ih =>
    obtain ⟨key, v⟩ := e
    rw [List.cons_append, ofFields, ofFields, ih, List.append_assoc]

section Same

variable {q : String → Aliases → Aliases → Prop} {p : Scalar → Prop}

theorem simulates_same (hq : ∀ name t, q name t t) : Simulates [] Eq q where
  push h := congrArg (·.push []) h
  declare a name h _ := congrArg (·.declare (.str a) name) h
  bind a target h _ := congrArg (fun s => s.declare (.str a) (s.bound target)) h
  snapshot name h := h ▸ hq name _

/-- The alias block of a map does not depend on the values of its fields. -/
theorem alike_ofAliases_same (s : AliasScope) (name : String) (hq : ∀ name t, q name t t)
    (hc : c.Alike c') (hkey : c.markers.aliasesKey = some (.str key))
    (hget : Assoc.get? entries' (.str key) = Assoc.get? entries (.str key))
    (hv : IsDocument p (.map entries)) :
    List.Forall₂ (Definition.Alike q) (ofAliases c s name entries).1
      (ofAliases c' s name entries').1 ∧
      (ofAliases c s name entries).2 = (ofAliases c' s name entries').2 := by
  have hkey' : c'.markers.aliasesKey = some (.str key) := hc.markers ▸ hkey
  cases hfound : Assoc.get? entries (.str key) with
  | none =>
    rw [ofAliases_absent hkey hfound, ofAliases_absent hkey' (hget.trans hfound)]
    exact ⟨.nil, rfl⟩
  | some v =>
    rw [ofAliases_found hkey hfound, ofAliases_found hkey' (hget.trans hfound)]
    exact alike_ofAliasBlock (simulates_same hq) (hc.inside _) rfl name v
      (undeclared_nil _ (hv.found hfound)) fun _ _ _ _ => List.not_mem_nil

/-- What the fields define does not depend on the alias block of their map. -/
theorem alike_ofFields_block (name : String) (v' : Json) {taken : List Scalar}
    {R : AliasScope → AliasScope → Prop}
    (hsim : Simulates taken R q) (hc : c.Alike c') (hR : R s s')
    (hkey : c.markers.aliasesKey = some (.str key))
    (hfound : Assoc.get? entries (.str key) = some v) (once : (Assoc.keys entries).Nodup)
    (hparts : ∀ e ∈ entries, e.1 ≠ .str key → Undeclared c.markers taken e.2) (table : NameTable) :
    List.Forall₂ (Definition.Alike q) (ofFields c s name table entries)
      (ofFields c' s' name table (Assoc.insert entries (.str key) v')) := by
  obtain ⟨pre, post, rfl, hpre, hinsert⟩ := split_found hfound
  rw [Assoc.keys, List.map_append, List.nodup_append] at once
  obtain ⟨-, once, -⟩ := once
  have hpost : ∀ e ∈ post, e.1 ≠ .str key := by
    intro e he hsame
    have hmem := List.mem_map_of_mem (f := Prod.fst) he
    rw [hsame] at hmem
    exact (List.nodup_cons.mp once).1 hmem
  have hnothing (c : Context) (s : AliasScope) (v : Json)
      (hkey : c.markers.aliasesKey = some (.str key)) :
      ofFields c s name table ((.str key, v) :: post) = ofFields c s name table post := by
    have hblock : c.markers.isField (.str key) = false := by
      rw [Markers.isField, hkey, Option.any_some, (same_str key key).mpr rfl]
      exact Bool.and_false _
    rw [ofFields, hblock]
    rfl
  have hkey' : c'.markers.aliasesKey = some (.str key) := hc.markers ▸ hkey
  rw [hinsert, ofFields_append, ofFields_append, hnothing c s v hkey, hnothing c' s' v' hkey']
  refine List.rel_append ?_ ?_
  · exact alike_ofFields hsim hc hR name table pre fun e he =>
      hparts e (List.mem_append_left _ he) (hpre e he)
  · exact alike_ofFields hsim hc hR name table post fun e he =>
      hparts e (List.mem_append_right pre (List.mem_cons_of_mem _ he)) (hpost e he)

end Same

/-- Two lists of definitions that hold a part each, with definitions around it that are alike. -/
inductive Around (q : String → Aliases → Aliases → Prop) (part part' : List Definition) :
    List Definition → List Definition → Prop
  | intro {before before' after after' : List Definition}
      (front : List.Forall₂ (Definition.Alike q) before before')
      (back : List.Forall₂ (Definition.Alike q) after after') :
      Around q part part' (before ++ part ++ after) (before' ++ part' ++ after')

section Around

variable {q : String → Aliases → Aliases → Prop} {part part' ds ds' more more' : List Definition}

theorem Around.refl (q : String → Aliases → Aliases → Prop) (part part' : List Definition) :
    Around q part part' part part' := by
  have h : Around q part part' ([] ++ part ++ []) ([] ++ part' ++ []) := .intro .nil .nil
  rwa [List.append_nil, List.append_nil] at h

theorem Around.append (h : Around q part part' ds ds')
    (hmore : List.Forall₂ (Definition.Alike q) more more') :
    Around q part part' (ds ++ more) (ds' ++ more') := by
  cases h with
  | intro front back =>
    rw [List.append_assoc _ _ more, List.append_assoc _ _ more']
    exact .intro front (List.rel_append back hmore)

theorem Around.behind (h : Around q part part' ds ds')
    (hmore : List.Forall₂ (Definition.Alike q) more more') :
    Around q part part' (more ++ ds) (more' ++ ds') := by
  cases h with
  | intro front back =>
    rw [← List.append_assoc, ← List.append_assoc, ← List.append_assoc, ← List.append_assoc]
    exact .intro (List.rel_append hmore front) back

theorem Around.mem (h : Around q part part' ds ds') {d : Definition} (hd : d ∈ part) : d ∈ ds := by
  cases h with
  | intro front back => exact List.mem_append_left _ (List.mem_append_right _ hd)

theorem Around.alikeByName (h : Around q part part' ds ds') (hpart : AlikeByName q part part') :
    AlikeByName q ds ds' := by
  cases h with
  | intro front back =>
    exact ((AlikeByName.of_forall₂ front).append hpart).append (.of_forall₂ back)

end Around

end Inference
end Exemplar
