import Exemplar.Proofs.PlainDefinitions
import Exemplar.Proofs.Registration
import Exemplar.Schema.Registry

/-! Types of plain samples. All types of a plain sample are registered once and without a problem,
and each field and each element has the type of the value that it was made from. -/
namespace Exemplar
open Json Inference

namespace Catalogue

/-- The catalogue of definitions of one source that all have names of their own. -/
def ofDefinitions (source : String) (ds : List Definition) : Catalogue :=
  ⟨ds.map fun d => (d.name, d), if ds.isEmpty then [] else [(source, ds.map Definition.name)], [],
    false⟩

variable {console : Text.Console} {source : String} {ds : List Definition}

theorem keys_ofDefinitions (source : String) (ds : List Definition) :
    Assoc.keys (ofDefinitions source ds).types = ds.map Definition.name := by
  rw [ofDefinitions, Assoc.keys, List.map_map]
  rfl

theorem get?_ofDefinitions_new {name : String} (h : name ∉ ds.map Definition.name) :
    (ofDefinitions source ds).get? name = none := by
  rw [← keys_ofDefinitions source, ← Assoc.has_iff, Assoc.has] at h
  simpa [get?] using h

/-- Registering one more definition under a new name. -/
theorem register_new {d : Definition} (hsource : d.source = source)
    (hnew : d.name ∉ ds.map Definition.name) :
    (ofDefinitions source ds).register d = ofDefinitions source (ds ++ [d]) := by
  have htypes : Assoc.insert (ofDefinitions source ds).types d.name d =
      (ofDefinitions source (ds ++ [d])).types := by
    rw [Assoc.keys_insert_new (by rwa [keys_ofDefinitions]), ofDefinitions, ofDefinitions,
      List.map_append]
    rfl
  have hfiles : listUnder (ofDefinitions source ds).files d.source d.name =
      (ofDefinitions source (ds ++ [d])).files := by
    rw [hsource]
    cases ds with
    | nil => rfl
    | cons e ds => simp [ofDefinitions, listUnder, Assoc.get?, Assoc.insert]
  rw [register, get?_ofDefinitions_new hnew]
  simp only [htypes, hfiles]
  rfl

/-- Definitions with names of their own are registered without an announcement. -/
theorem registerAll_new {more : List Definition} (hsource : ∀ d ∈ more, d.source = source)
    (hnew : ((ds ++ more).map Definition.name).Nodup) :
    (ofDefinitions source ds).registerAll console more =
      (.ok (), ofDefinitions source (ds ++ more)) := by
  induction more generalizing ds with
  | nil => rw [registerAll, List.append_nil]
  | cons d more ih =>
    have hd : d.name ∉ ds.map Definition.name := by
      rw [List.map_append, List.nodup_append] at hnew
      exact fun h => hnew.2.2 _ h _ (by simp) rfl
    have hsplit : ds ++ d :: more = ds ++ [d] ++ more := by simp
    have hquiet : (ofDefinitions source ds).announce console d = .ok () := by
      rw [announce, get?_ofDefinitions_new hd]
    rw [hsplit] at hnew ⊢
    rw [registerAll, hquiet]
    simp only []
    rw [register_new (hsource d (by simp)) hd]
    exact ih (fun e he => hsource e (by simp [he])) hnew

theorem registerAll_empty (hsource : ∀ d ∈ ds, d.source = source)
    (hnew : (ds.map Definition.name).Nodup) :
    empty.registerAll console ds = (.ok (), ofDefinitions source ds) := by
  have hall : (ofDefinitions source []).registerAll console ds =
      (.ok (), ofDefinitions source ([] ++ ds)) :=
    registerAll_new hsource hnew
  exact hall

end Catalogue

namespace Inference

/-- What every definition made at a site has in common. -/
theorem made_at {source : String} {site : String × Json} {d : Definition}
    (h : definitionAt source site = some d) :
    d.name = site.1 ∧ d.source = source ∧ d.edition = 0 ∧ d.errors = [] := by
  unfold definitionAt at h
  split at h
  · cases h
  · cases h
    exact ⟨rfl, rfl, rfl, rfl⟩
  · cases h
    exact ⟨rfl, rfl, rfl, rfl⟩

/-- The names of the sites at which something is defined: those of maps and lists. -/
def definedNames (found : List (String × Json)) : List String :=
  (found.filter fun site => site.2.isMap || site.2.isList).map Prod.fst

theorem names_definitionsAt (source : String) (found : List (String × Json)) :
    (definitionsAt source found).map Definition.name = definedNames found := by
  induction found with
  | nil => rfl
  | cons site found ih =>
    obtain ⟨name, v⟩ := site
    cases v with
    | scalar s => exact ih
    | list items => exact congrArg (List.cons name) ih
    | map entries => exact congrArg (List.cons name) ih

theorem once_definedNames {space : String} {found : List (String × Json)} (h : Apart space found) :
    (definedNames found).Nodup :=
  h.once.sublist (List.filter_sublist.map Prod.fst)

/-- Under the name of a site stands what the site defines, if it defines anything. -/
theorem get?_site {space : String} (source : String) {found : List (String × Json)}
    (h : Apart space found) {site : String × Json} (hsite : site ∈ found) :
    (Catalogue.ofDefinitions source (definitionsAt source found)).get? site.1 =
      definitionAt source site := by
  have honce : (Assoc.keys
      (Catalogue.ofDefinitions source (definitionsAt source found)).types).Nodup := by
    rw [Catalogue.keys_ofDefinitions, names_definitionsAt]
    exact once_definedNames h
  cases hd : definitionAt source site with
  | some d =>
    refine Assoc.get?_of_mem honce
      (List.mem_map.mpr ⟨d, List.mem_filterMap.mpr ⟨site, hsite, hd⟩, ?_⟩)
    rw [(made_at hd).1]
  | none =>
    cases hget : (Catalogue.ofDefinitions source (definitionsAt source found)).get? site.1 with
    | none => rfl
    | some d =>
      obtain ⟨name, hmem, hname⟩ := Assoc.get?_mem hget
      obtain ⟨d', hd', heq⟩ := List.mem_map.mp hmem
      obtain ⟨site', hsite', hat⟩ := List.mem_filterMap.mp hd'
      have hsame : site'.1 = site.1 := by
        rw [← (made_at hat).1, (Prod.mk.inj heq).1, eq_of_beq hname]
      rw [List.inj_on_of_nodup_map h.once hsite' hsite hsame, hd] at hat
      cases hat

end Inference

namespace Document

/-- The value that a plain document's types come from: a scalar defines no more than an empty
map. -/
def root (d : Document) : Json :=
  match d.value with
  | .scalar _ => .map []
  | v => v

variable {d : Document} {q : Scalar → Prop}

theorem isDocument_root (hv : IsDocument q d.value) : IsDocument q d.root := by
  rw [root]
  split
  · exact .map (by simp) (by simp [Assoc.keys]) (by simp)
  · exact hv

theorem root_of_container (hcontainer : (d.value.isMap || d.value.isList) = true) :
    d.root = d.value := by
  rw [root]
  cases hvalue : d.value with
  | scalar s =>
    rw [hvalue] at hcontainer
    cases hcontainer
  | _ => rfl

theorem definitions_plain (options : Options) (hplain : d.plain = true) {v : Json}
    (hv : IsDocument q v) (hsample : d.sample = v.typeNames) :
    d.definitions options = definitionsAt d.origin (sites d.name v) := by
  rw [definitions, hplain, hsample]
  exact (defines hv).value _ _ _ rfl rfl (by simp [Bare, AliasScope.empty])

theorem registerAll_sites (console : Text.Console) (source name : String) {v : Json}
    (hv : IsDocument q v) :
    Catalogue.empty.registerAll console (definitionsAt source (sites name v)) =
      (.ok (), .ofDefinitions source (definitionsAt source (sites name v))) := by
  refine Catalogue.registerAll_empty (fun e he => ?_) ?_
  · obtain ⟨site, -, hat⟩ := List.mem_filterMap.mp he
    exact (made_at hat).2.1
  · rw [names_definitionsAt]
    exact once_definedNames (apart_sites hv name)

theorem addDocument_container (options : Options) (hplain : d.plain = true) (herrors : d.errors = [])
    {v : Json} (hv : IsDocument q v) (hsample : d.sample = v.typeNames)
    (hroot : (definitionAt d.origin (d.name, v)).isSome = true) :
    Catalogue.empty.addDocument options d =
      (.ok (), .ofDefinitions d.origin (definitionsAt d.origin (sites d.name v))) := by
  have hmissing : (Catalogue.ofDefinitions d.origin
      (definitionsAt d.origin (sites d.name v))).missingRoot? d = none := by
    obtain ⟨e, he⟩ := Option.isSome_iff_exists.mp hroot
    have hget := get?_site d.origin (apart_sites hv d.name) (self_mem_sites d.name v)
    rw [he] at hget
    rw [Catalogue.missingRoot?, hget, Option.any_some, (made_at he).2.1]
    simp
  rw [Catalogue.addDocument, definitions_plain options hplain hv hsample,
    registerAll_sites options.console d.origin d.name hv]
  simp only [hmissing, Option.toList_none, Catalogue.registerAll, herrors, Catalogue.addErrors_nil]

/-- A scalar defines nothing, and the empty struct that is registered in place of a root is what an
empty map defines. -/
theorem addDocument_scalar (options : Options) (hplain : d.plain = true) (herrors : d.errors = [])
    {s : Scalar} (hs : q s) (hsample : d.sample = (Json.scalar s).typeNames) :
    Catalogue.empty.addDocument options d =
      (.ok (), .ofDefinitions d.origin (definitionsAt d.origin (sites d.name (.map [])))) := by
  have hmap : IsDocument q (.map []) := .map (by simp) (by simp [Assoc.keys]) (by simp)
  have hone := registerAll_sites options.console d.origin d.name hmap
  have hmissing : Catalogue.empty.missingRoot? d =
      some { name := d.name, source := d.origin, shape := .struct [] [] } := rfl
  have hnothing : Catalogue.empty.registerAll options.console
      (definitionsAt d.origin (sites d.name (.scalar s))) = (.ok (), .empty) := rfl
  rw [show definitionsAt d.origin (sites d.name (.map [])) =
    [{ name := d.name, source := d.origin, shape := .struct [] [] }] from rfl] at hone ⊢
  rw [Catalogue.addDocument, definitions_plain options hplain (.scalar hs) hsample, hnothing]
  simp only [hmissing, Option.toList_some, hone, herrors, Catalogue.addErrors_nil]

/-- What a plain document registers. -/
theorem addDocument_plain (options : Options) (hplain : d.plain = true) (herrors : d.errors = [])
    (hv : IsDocument q d.value) :
    Catalogue.empty.addDocument options d =
      (.ok (), .ofDefinitions d.origin (definitionsAt d.origin (sites d.name d.root))) := by
  have hroot := d.isDocument_root hv
  rw [root] at hroot ⊢
  cases hvalue : d.value with
  | scalar s =>
    rw [hvalue] at hv hroot
    obtain ⟨hs⟩ := hv
    cases s with
    | null =>
      refine addDocument_container options hplain herrors hroot ?_ rfl
      rw [sample, hplain, hvalue]
      rfl
    | _ =>
      refine addDocument_scalar options hplain herrors hs ?_
      rw [sample, hplain, hvalue]
      rfl
  | list items =>
    rw [hvalue] at hroot
    refine addDocument_container options hplain herrors hroot ?_ rfl
    rw [sample, hplain, hvalue]
    rfl
  | map entries =>
    rw [hvalue] at hroot
    refine addDocument_container options hplain herrors hroot ?_ rfl
    rw [sample, hplain, hvalue]
    rfl

end Document
end Exemplar
