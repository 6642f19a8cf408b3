import Exemplar.Proofs.AlikeDefinitions

/-! Values without aliases of scalars. Alias blocks are found in the samples of structs only, and an
alias of a scalar defines nothing there: without it the same types are defined, and all that can
differ in them is which aliases the structs see. -/
namespace Exemplar
open Inference

namespace Json

mutual
/-- The value without the aliases of texts that its structs declare. -/
def trimmed (m : Markers) : Json → Json
  | .scalar s => .scalar s
  | .list items => .list (trimmedItems m items)
  | .map entries =>
    if (Markers.value? m.enumKey entries).isSome then .map entries
    else .map (trimmedEntries m (Markers.value? m.mapOfKey entries).isNone entries)
def trimmedItems (m : Markers) : List Json → List Json
  | [] => []
  | v :: rest => trimmed m v :: trimmedItems m rest
/-- The entries of a map. Only one that is the sample of a struct has an alias block. -/
def trimmedEntries (m : Markers) (struct : Bool) : List (Scalar × Json) → List (Scalar × Json)
  | [] => []
  | (key, v) :: rest =>
    (key, if struct && m.aliasesKey.any (fun a => key == a) then trimmedBlock m v else trimmed m v) ::
      trimmedEntries m struct rest
def trimmedBlock (m : Markers) : Json → Json
  | .map block => .map (trimmedAliases m block)
  | v => v
def trimmedAliases (m : Markers) : List (Scalar × Json) → List (Scalar × Json)
  | [] => []
  | (_, .scalar (.str _)) :: rest => trimmedAliases m rest
  | (a, v) :: rest => (a, trimmed m v) :: trimmedAliases m rest
end

variable {m : Markers}

theorem alike_trimmed (m : Markers) (v : Json) : v.Alike (v.trimmed m) := by
  cases v with
  | scalar s => simp [trimmed, Alike]
  | list items => simp [trimmed, Alike]
  | map entries =>
    rw [trimmed]
    split <;> trivial

theorem trimmed_ne_scalar (m : Markers) {v : Json} (hv : ∀ s, v ≠ .scalar s) (s : Scalar) :
    v.trimmed m ≠ .scalar s := by
  intro hs
  have halike := alike_trimmed m v
  rw [hs] at halike
  cases v with
  | scalar t => exact hv t rfl
  | list items => exact halike
  | map entries => exact halike

theorem alike_trimmedBlock (m : Markers) (v : Json) : v.Alike (v.trimmedBlock m) := by
  cases v <;> simp [trimmedBlock, Alike]

theorem entriesAlike_trimmed (m : Markers) (struct : Bool) (entries : List (Scalar × Json)) :
    EntriesAlike entries (trimmedEntries m struct entries) := by
  induction entries with
  | nil =>
    rw [trimmedEntries]
    exact .nil
  | cons e rest ih =>
    rw [trimmedEntries]
    refine .cons ⟨rfl, ?_⟩ ih
    dsimp only
    split
    · exact alike_trimmedBlock m e.2
    · exact alike_trimmed m e.2

theorem trimmed_enum {entries : List (Scalar × Json)}
    (henum : (Markers.value? m.enumKey entries).isSome = true) :
    (Json.map entries).trimmed m = .map entries := by
  rw [trimmed, if_pos henum]

theorem trimmed_map {entries : List (Scalar × Json)} (henum : Markers.value? m.enumKey entries = none) :
    (Json.map entries).trimmed m =
      .map (trimmedEntries m (Markers.value? m.mapOfKey entries).isNone entries) := by
  rw [trimmed, henum]
  rfl

end Json

namespace Inference
open Json

abbrev AnyAliases : String → Aliases → Aliases → Prop := fun _ _ _ => True

variable {c c' : Context} {entries entries' : List (Scalar × Json)} {marked marked' : List Definition}
  {aliases aliases' : AliasScope → List Definition × AliasScope}
  {fields fields' : NameTable → AliasScope → List Definition}

theorem assembleMap_enum (s : AliasScope) (name : String) {literals : Json}
    (henum : Markers.value? c.markers.enumKey entries = some literals) :
    assembleMap c s name entries marked aliases fields =
      [{ name, source := c.source, shape := .enum (enumValues (literalsOf literals)) c.literals }] := by
  rw [assembleMap, henum]

theorem alike_enum (hc : c.Alike c') (s s' : AliasScope) (name : String) {literals : Json}
    (henum : Markers.value? c.markers.enumKey entries = some literals) :
    List.Forall₂ (Definition.Alike AnyAliases)
      (assembleMap c s name entries marked aliases fields)
      (assembleMap c' s' name entries marked' aliases' fields') := by
  rw [assembleMap_enum s name henum, assembleMap_enum s' name (hc.markers ▸ henum)]
  exact .cons ⟨rfl, hc.source, rfl, rfl, rfl⟩ .nil

/-- Maps with entries that are alike define the same, if their parts do. -/
theorem alike_map (hc : c.Alike c') (s s' : AliasScope) (name : String)
    (hentries : EntriesAlike entries entries')
    (henum : Markers.value? c.markers.enumKey entries = none)
    (hmarked : (Markers.value? c.markers.mapOfKey entries).isNone = false →
      List.Forall₂ (Definition.Alike AnyAliases) marked marked')
    (hstruct : (Markers.value? c.markers.mapOfKey entries).isNone = true → ∀ s s' names,
      List.Forall₂ (Definition.Alike AnyAliases) (aliases s).1 (aliases' s').1 ∧
        List.Forall₂ (Definition.Alike AnyAliases) (fields names s) (fields' names s')) :
    List.Forall₂ (Definition.Alike AnyAliases) (assembleMap c s name entries marked aliases fields)
      (assembleMap c' s' name entries' marked' aliases' fields') := by
  have henum' : Markers.value? c'.markers.enumKey entries' = none := by
    have hsame := hentries.value?_isSome c.markers.enumKey
    rw [henum] at hsame
    rw [hc.markers]
    simpa using hsame
  have hmapOf := hentries.value?_isSome c.markers.mapOfKey
  rw [← hc.markers] at hmapOf
  rw [assembleMap, assembleMap, henum, henum']
  simp only [hmapOf]
  rw [hc.markers]
  cases hmarker : Markers.value? c.markers.mapOfKey entries with
  | some v =>
    rw [hmarker] at hmarked
    exact hmarked rfl
  | none =>
    rw [hmarker] at hstruct
    rw [fieldNames_alike hc hentries]
    have hown := (hstruct rfl (s.push []) (s'.push []) .empty).1
    have hfields := (hstruct rfl (aliases (s.push [])).2 (aliases' (s'.push [])).2
      (fieldNames c entries)).2
    exact List.rel_append (List.rel_append hown hfields)
      (.cons (alike_struct name hc hentries trivial) .nil)

mutual
theorem trimmed_ofValue {c c' : Context} (hc : c.Alike c') (s s' : AliasScope) (name : String) :
    (v : Json) → List.Forall₂ (Definition.Alike AnyAliases) (ofValue c s name v)
      (ofValue c' s' name (v.trimmed c.markers))
  | .scalar _ => by
    rw [trimmed, ofValue, ofValue]
    exact .nil
  | .list items => by
    rw [trimmed, ofValue, ofValue]
    exact trimmed_ofItems hc s s' name 0 items
  | .map entries => by
    cases henum : Markers.value? c.markers.enumKey entries with
    | some literals =>
      rw [trimmed_enum (henum ▸ rfl), ofValue, ofValue]
      exact alike_enum hc s s' name henum
    | none =>
      rw [trimmed_map henum, ofValue, ofValue]
      exact alike_map hc s s' name (entriesAlike_trimmed _ _ entries) henum
        (fun hmapOf => hmapOf ▸ trimmed_ofMarked hc s s' name entries)
        (fun hstruct s s' names => hstruct ▸
          ⟨trimmed_ofAliases hc s s' name entries, trimmed_ofFields hc s s' name names entries⟩)
theorem trimmed_ofItems {c c' : Context} (hc : c.Alike c') (s s' : AliasScope) (name : String)
    (depth : Nat) : (items : List Json) → List.Forall₂ (Definition.Alike AnyAliases)
      (ofItems c s name depth items) (ofItems c' s' name depth (trimmedItems c.markers items))
  | [] => by
    rw [trimmedItems, ofItems, ofItems]
    exact .cons (alike_listDefinition hc name depth (.refl _)) .nil
  | first :: _ => by
    rw [trimmedItems, ofItems, ofItems]
    exact trimmed_ofElement (hc.inside _) s s' name (depth + 1) first
theorem trimmed_ofElement {c c' : Context} (hc : c.Alike c') (s s' : AliasScope) (name : String)
    (depth : Nat) : (v : Json) → List.Forall₂ (Definition.Alike AnyAliases)
      (ofElement c s name depth v) (ofElement c' s' name depth (v.trimmed c.markers))
  | .scalar _ => by
    rw [trimmed, ofElement, ofElement]
    exact .cons (alike_listDefinition hc name depth (.refl _)) .nil
  | .list items => by
    rw [trimmed, ofElement, ofElement]
    exact trimmed_ofItems hc s s' name depth items
  | .map entries => by
    cases henum : Markers.value? c.markers.enumKey entries with
    | some literals =>
      rw [trimmed_enum (henum ▸ rfl), ofElement, ofElement]
      have hkept := hc.keeping (.map entries) (.map entries)
      exact List.rel_append (alike_enum hkept s s' (elementName name) henum)
        (.cons (alike_listDefinition hkept name depth (.refl _)) .nil)
    | none =>
      rw [trimmed_map henum, ofElement, ofElement]
      generalize hsample : Json.map (trimmedEntries c.markers _ entries) = sample
      have halike : (Json.map entries).Alike sample := hsample ▸ trivial
      have hkept := hc.keeping (.map entries) sample
      refine List.rel_append ?_ (.cons (alike_listDefinition hkept name depth halike) .nil)
      refine alike_map hkept s s' (elementName name) (entriesAlike_trimmed _ _ entries) henum ?_ ?_
      · intro hmapOf
        rw [show (Markers.value? c.markers.mapOfKey entries).isNone = false from hmapOf]
        exact trimmed_ofMarked hkept s s' (elementName name) entries
      · intro hstruct s s' names
        rw [show (Markers.value? c.markers.mapOfKey entries).isNone = true from hstruct]
        exact ⟨trimmed_ofAliases hkept s s' (elementName name) entries,
          trimmed_ofFields hkept s s' (elementName name) names entries⟩
/-- Below the map marker there is no alias block. -/
theorem trimmed_ofMarked {c c' : Context} (hc : c.Alike c') (s s' : AliasScope) (name : String) :
    (entries : List (Scalar × Json)) → List.Forall₂ (Definition.Alike AnyAliases)
      (ofMarked c s name entries) (ofMarked c' s' name (trimmedEntries c.markers false entries))
  | [] => by
    rw [trimmedEntries, ofMarked, ofMarked]
    exact .nil
  | (key, v) :: rest => by
    rw [trimmedEntries, ofMarked, ofMarked, hc.markers]
    split
    · exact trimmed_ofValue (hc.inside key) s s' name v
    · exact trimmed_ofMarked hc s s' name rest
theorem trimmed_ofFields {c c' : Context} (hc : c.Alike c') (s s' : AliasScope) (name : String)
    (names : NameTable) : (entries : List (Scalar × Json)) →
      List.Forall₂ (Definition.Alike AnyAliases) (ofFields c s name names entries)
        (ofFields c' s' name names (trimmedEntries c.markers true entries))
  | [] => by
    rw [trimmedEntries, ofFields, ofFields]
    exact .nil
  | (key, v) :: rest => by
    rw [trimmedEntries, ofFields, ofFields, hc.markers]
    refine List.rel_append ?_ (trimmed_ofFields hc s s' name names rest)
    by_cases hfield : c.markers.isField key = true
    · -- The key of the aliases gives no field.
      have hplain : (c.markers.aliasesKey.any fun a => key == a) = false := by
        rw [Markers.isField, Bool.and_eq_true, Bool.not_eq_true'] at hfield
        exact hfield.2
      rw [if_pos hfield, if_pos hfield, hplain]
      exact trimmed_ofValue (hc.sample key v _) s s' _ v
    · rw [if_neg hfield, if_neg hfield]
      exact .nil
theorem trimmed_ofAliases {c c' : Context} (hc : c.Alike c') (s s' : AliasScope) (name : String) :
    (entries : List (Scalar × Json)) → List.Forall₂ (Definition.Alike AnyAliases)
      (ofAliases c s name entries).1
      (ofAliases c' s' name (trimmedEntries c.markers true entries)).1
  | [] => by
    rw [trimmedEntries, ofAliases, ofAliases]
    exact .nil
  | (key, v) :: rest => by
    rw [trimmedEntries, ofAliases, ofAliases, hc.markers]
    by_cases hkey : (c.markers.aliasesKey.any fun a => key == a) = true
    · rw [if_pos hkey, if_pos hkey, hkey]
      exact trimmed_ofAliasBlock (hc.inside key) s s' name v
    · rw [if_neg hkey, if_neg hkey]
      exact trimmed_ofAliases hc s s' name rest
theorem trimmed_ofAliasBlock {c c' : Context} (hc : c.Alike c') (s s' : AliasScope) (name : String) :
    (v : Json) → List.Forall₂ (Definition.Alike AnyAliases) (ofAliasBlock c s name v).1
      (ofAliasBlock c' s' name (v.trimmedBlock c.markers)).1
  | .scalar _ => by
    rw [trimmedBlock, ofAliasBlock, ofAliasBlock]
    all_goals first | exact .nil | exact nofun
  | .list _ => by
    rw [trimmedBlock, ofAliasBlock, ofAliasBlock]
    all_goals first | exact .nil | exact nofun
  | .map block => by
    rw [trimmedBlock, ofAliasBlock, ofAliasBlock]
    exact trimmed_ofAliasEntries hc s s' name block
/-- An alias of a text only changes the scope, and types are defined in all scopes alike. -/
theorem trimmed_ofAliasEntries {c c' : Context} (hc : c.Alike c') (s s' : AliasScope)
    (name : String) : (block : List (Scalar × Json)) → List.Forall₂ (Definition.Alike AnyAliases)
      (ofAliasEntries c s name block).1
      (ofAliasEntries c' s' name (trimmedAliases c.markers block)).1
  | [] => by
    rw [trimmedAliases, ofAliasEntries, ofAliasEntries]
    exact .nil
  | (a, .scalar (.str text)) :: rest => by
    rw [trimmedAliases, ofAliasEntries]
    exact trimmed_ofAliasEntries hc _ s' name rest
  | (a, .scalar .null) :: rest | (a, .scalar (.bool _)) :: rest | (a, .scalar (.int _)) :: rest
  | (a, .scalar (.float _)) :: rest => by
    rw [trimmedAliases, trimmed, ofAliasEntries, ofAliasEntries]
    · exact trimmed_ofAliasEntries hc _ _ name rest
    · exact nofun
  | (a, .list items) :: rest => by
    rw [trimmedAliases, ofAliasEntries, ofAliasEntries]
    · exact List.rel_append (trimmed_ofValue (hc.inside a) _ _ _ (.list items))
        (trimmed_ofAliasEntries hc _ _ name rest)
    all_goals first | exact trimmed_ne_scalar _ nofun | exact nofun
  | (a, .map entries) :: rest => by
    rw [trimmedAliases, ofAliasEntries, ofAliasEntries]
    · exact List.rel_append (trimmed_ofValue (hc.inside a) _ _ _ (.map entries))
        (trimmed_ofAliasEntries hc _ _ name rest)
    all_goals first | exact trimmed_ne_scalar _ nofun | exact nofun
end

end Inference
end Exemplar
