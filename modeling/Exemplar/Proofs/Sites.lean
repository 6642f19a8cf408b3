import Exemplar.Proofs.DottedNames
import Exemplar.Schema.Inference

/-! The sites of a document: the values that are met along keys and first elements, each with the
dotted name of its place. A key adds the name of its property; however many lists lie in one another,
the way through their first elements adds one segment only. What an empty list lacks counts as null
there. -/
namespace Exemplar.Json
open Inference Name

def propertyNames {α : Type} (entries : List (Scalar × α)) : NameTable :=
  NameTable.ofKeys Identifier.ofText (Assoc.keys entries)

def propertyIn (names : NameTable) (key : Scalar) : String := (names.name? key).getD ""

mutual
def sites (name : String) : Json → List (String × Json)
  | .scalar s => [(name, .scalar s)]
  | .list items => itemSites name items ++ [(name, .list items)]
  | .map entries => entrySites name (propertyNames entries) entries ++ [(name, .map entries)]
def itemSites (name : String) : List Json → List (String × Json)
  | [] => [(elementName name, null)]
  | x :: _ => elementSites name x
def elementSites (name : String) : Json → List (String × Json)
  | .scalar s => [(elementName name, .scalar s)]
  | .list items => itemSites name items
  | .map entries =>
    entrySites (elementName name) (propertyNames entries) entries ++
      [(elementName name, .map entries)]
def entrySites (name : String) (names : NameTable) : List (Scalar × Json) → List (String × Json)
  | [] => []
  | (key, x) :: rest => sites (member name (propertyIn names key)) x ++ entrySites name names rest
end

mutual
/-- How many lists lie in one another along first elements, not counting an empty one. -/
def levels : Json → Nat
  | .list items => itemLevels items
  | _ => 0
/-- How many lists lie in one another, from the items of the outermost one. -/
def itemLevels : List Json → Nat
  | [] => 0
  | x :: _ => levels x + 1
end

mutual
/-- What is met first on the way through first elements that is no list; nothing, if the way ends
with an empty list. -/
def innermost : Json → Option Json
  | .list items => itemInnermost items
  | v => some v
def itemInnermost : List Json → Option Json
  | [] => none
  | x :: _ => innermost x
end

mutual
/-- The way through first elements goes on as long as there are lists. -/
theorem innermost_ne_list : (v : Json) → (items : List Json) → innermost v ≠ some (.list items)
  | .scalar _, _ => by simp [innermost]
  | .list xs, items => itemInnermost_ne_list xs items
  | .map _, _ => by simp [innermost]
theorem itemInnermost_ne_list :
    (xs : List Json) → (items : List Json) → itemInnermost xs ≠ some (.list items)
  | [], _ => by simp [itemInnermost]
  | x :: _, items => innermost_ne_list x items
end

theorem mem_entrySites {name : String} {names : NameTable} {entries : List (Scalar × Json)}
    {site : String × Json} : site ∈ entrySites name names entries ↔
      ∃ e ∈ entries, site ∈ sites (member name (propertyIn names e.1)) e.2 := by
  induction entries with
  | nil => simp [entrySites]
  | cons e entries ih =>
    obtain ⟨key, x⟩ := e
    simp [entrySites, ih]

theorem self_mem_sites (name : String) (v : Json) : (name, v) ∈ sites name v := by
  cases v <;> simp [sites]

variable {q : Scalar → Prop} {v : Json}

/-- The innermost first element is a site. -/
theorem elementSites_eq (hv : IsDocument q v) (name : String) :
    elementSites name v = sites (elementName name) ((innermost v).getD null) := by
  induction hv with
  | scalar => rfl
  | @list items _ ih =>
    cases items with
    | nil => rfl
    | cons x xs => exact ih x (by simp)
  | map => rfl

/-- The keys of a document's map have names of their own. -/
theorem names_propertyNames {entries : List (Scalar × Json)}
    (hnames : ∀ e ∈ entries, ∃ s, e.1 = .str s) (honce : (Assoc.keys entries).Nodup) :
    (propertyNames entries).Names (Assoc.keys entries) :=
  NameTable.names_ofKeys Identifier.isWord_ofText
    (List.pairwise_map.mpr (pairwise_keys hnames honce))

theorem mem_names_of_key {t : NameTable} {keys : List Scalar} (h : t.Names keys) {s : String}
    (hs : .str s ∈ keys) : (.str s, propertyIn t (.str s)) ∈ t.names := by
  rw [← h.keys_eq] at hs
  obtain ⟨e, he, hkey⟩ := List.mem_map.mp hs
  cases hget : t.name? (.str s) with
  | none =>
    have hne := Assoc.get?_none.mp hget e he
    rw [hkey, ← Bool.not_eq_true, same_str] at hne
    exact absurd rfl hne
  | some p =>
    obtain ⟨k, hk, hsame⟩ := Assoc.get?_mem hget
    rw [eq_str_of_same hsame] at hk
    rw [propertyIn, hget]
    exact hk

/-- What the properties of a map owe to the names of its keys. -/
theorem isWord_propertyIn {t : NameTable} {keys : List Scalar} (h : t.Names keys) {s : String}
    (hs : .str s ∈ keys) : Identifier.IsWord (propertyIn t (.str s)) :=
  h.words _ (mem_names_of_key h hs)

theorem propertyIn_injective {t : NameTable} {keys : List Scalar} (h : t.Names keys) {a b : String}
    (ha : .str a ∈ keys) (hb : .str b ∈ keys)
    (hab : propertyIn t (.str a) = propertyIn t (.str b)) : a = b := by
  have hpair := List.inj_on_of_nodup_map h.once (mem_names_of_key h ha) (mem_names_of_key h hb) hab
  exact Scalar.str.inj (Prod.mk.inj hpair).1

/-- Sites with names of their own, all within one name. -/
structure Apart (space : String) (found : List (String × Json)) : Prop where
  once : (found.map Prod.fst).Nodup
  inside : ∀ site ∈ found, Inside space site.1

theorem Apart.snoc {space : String} {found : List (String × Json)}
    (h : (found.map Prod.fst).Nodup) (hbelow : ∀ site ∈ found, ∃ rest, site.1 = member space rest)
    (v : Json) : Apart space (found ++ [(space, v)]) where
  once := by
    rw [List.map_append, List.nodup_append]
    refine ⟨h, by simp, ?_⟩
    intro n hn m hm
    obtain ⟨site, hsite, rfl⟩ := List.mem_map.mp hn
    obtain rfl : m = space := by simpa using hm
    obtain ⟨rest, hrest⟩ := hbelow site hsite
    rw [hrest]
    exact member_ne m rest
  inside site hsite := by
    rcases List.mem_append.mp hsite with hsite | hsite
    · exact Or.inr (hbelow site hsite)
    · obtain rfl := List.mem_singleton.mp hsite
      exact Or.inl rfl

theorem once_entrySites {name : String} {names : NameTable} {entries : List (Scalar × Json)}
    (hwords : ∀ e ∈ entries, Identifier.IsWord (propertyIn names e.1))
    (hdifferent : entries.Pairwise fun e e' => propertyIn names e.1 ≠ propertyIn names e'.1)
    (hparts : ∀ e ∈ entries, ∀ name, Apart name (sites name e.2)) :
    ((entrySites name names entries).map Prod.fst).Nodup := by
  induction entries with
  | nil => simp [entrySites]
  | cons e entries ih =>
    obtain ⟨key, x⟩ := e
    obtain ⟨hfirst, hrest⟩ := List.pairwise_cons.mp hdifferent
    have hx := hparts (key, x) (by simp) (member name (propertyIn names key))
    rw [entrySites, List.map_append, List.nodup_append]
    refine ⟨hx.once, ih (fun e he => hwords e (by simp [he])) hrest
      (fun e he => hparts e (by simp [he])), ?_⟩
    intro n hn m hm
    obtain ⟨site, hsite, rfl⟩ := List.mem_map.mp hn
    obtain ⟨site', hsite', rfl⟩ := List.mem_map.mp hm
    obtain ⟨e', he', hsite'⟩ := mem_entrySites.mp hsite'
    have hin' := (hparts e' (by simp [he']) _).inside site' hsite'
    intro heq
    rw [← heq] at hin'
    exact hfirst e' he' (segment_unique (hwords (key, x) (by simp)) (hwords e' (by simp [he']))
      (hx.inside site hsite) hin')

theorem below_entrySites {name : String} {names : NameTable} {entries : List (Scalar × Json)}
    (hparts : ∀ e ∈ entries, ∀ name, Apart name (sites name e.2)) :
    ∀ site ∈ entrySites name names entries, ∃ rest, site.1 = member name rest := by
  intro site hsite
  obtain ⟨e, he, hsite⟩ := mem_entrySites.mp hsite
  exact ((hparts e he _).inside site hsite).of_member

theorem apart_map {entries : List (Scalar × Json)} (hnames : ∀ e ∈ entries, ∃ s, e.1 = .str s)
    (honce : (Assoc.keys entries).Nodup) (hparts : ∀ e ∈ entries, ∀ name, Apart name (sites name e.2))
    (name : String) : Apart name (sites name (.map entries)) := by
  have htable := names_propertyNames hnames honce
  have hkey : ∀ e ∈ entries, ∃ s, e.1 = .str s ∧ .str s ∈ Assoc.keys entries := by
    intro e he
    obtain ⟨s, hs⟩ := hnames e he
    exact ⟨s, hs, hs ▸ List.mem_map.mpr ⟨e, he, rfl⟩⟩
  have hwords : ∀ e ∈ entries, Identifier.IsWord (propertyIn (propertyNames entries) e.1) := by
    intro e he
    obtain ⟨s, hs, hmem⟩ := hkey e he
    rw [hs]
    exact isWord_propertyIn htable hmem
  have hdifferent : entries.Pairwise fun e e' =>
      propertyIn (propertyNames entries) e.1 ≠ propertyIn (propertyNames entries) e'.1 := by
    refine List.Pairwise.imp_of_mem (fun {e e'} he he' hne heq => ?_) (List.pairwise_map.mp honce)
    obtain ⟨s, hs, hmem⟩ := hkey e he
    obtain ⟨s', hs', hmem'⟩ := hkey e' he'
    rw [hs, hs'] at heq hne
    exact hne (congrArg Scalar.str (propertyIn_injective htable hmem hmem' heq))
  rw [sites]
  exact .snoc (once_entrySites hwords hdifferent hparts) (below_entrySites hparts) _

/-- No two sites of a document have the same name, and none of those below a first element. -/
theorem apart_sites_and_element (hv : IsDocument q v) : ∀ name,
    Apart name (sites name v) ∧ Apart (elementName name) (elementSites name v) := by
  induction hv with
  | scalar =>
    exact fun name => ⟨⟨by simp [sites], by simp [sites, Inside]⟩,
      ⟨by simp [elementSites], by simp [elementSites, Inside]⟩⟩
  | @list items hparts ih =>
    intro name
    have hbelow : Apart (elementName name) (itemSites name items) := by
      cases items with
      | nil => exact ⟨by simp [itemSites], by simp [itemSites, Inside]⟩
      | cons x xs => exact (ih x (by simp) name).2
    rw [sites]
    exact ⟨.snoc hbelow.once (fun site hsite => (hbelow.inside site hsite).of_member) _, hbelow⟩
  | map hnames honce hparts ih =>
    have hmap := apart_map hnames honce fun e he name => (ih e he name).1
    exact fun name => ⟨hmap name, hmap (elementName name)⟩

theorem apart_sites (hv : IsDocument q v) (name : String) : Apart name (sites name v) :=
  (apart_sites_and_element hv name).1

/-- Among these sites are those of the values that their maps and lists hold. -/
structure Closed (found : List (String × Json)) : Prop where
  entry : ∀ {name entries}, (name, .map entries) ∈ found → ∀ e ∈ entries,
    (member name (propertyIn (propertyNames entries) e.1), e.2) ∈ found
  element : ∀ {name items}, (name, .list items) ∈ found →
    (elementName name, (itemInnermost items).getD null) ∈ found

theorem Closed.append {found more : List (String × Json)} (h : Closed found) (h' : Closed more) :
    Closed (found ++ more) where
  entry hmem e he := by
    rcases List.mem_append.mp hmem with hmem | hmem
    · exact List.mem_append_left more (h.entry hmem e he)
    · exact List.mem_append_right found (h'.entry hmem e he)
  element hmem := by
    rcases List.mem_append.mp hmem with hmem | hmem
    · exact List.mem_append_left more (h.element hmem)
    · exact List.mem_append_right found (h'.element hmem)

theorem closed_entrySites {name : String} {names : NameTable} {entries : List (Scalar × Json)}
    (hparts : ∀ e ∈ entries, ∀ name, Closed (sites name e.2)) :
    Closed (entrySites name names entries) := by
  induction entries with
  | nil => exact ⟨by simp [entrySites], by simp [entrySites]⟩
  | cons e entries ih =>
    obtain ⟨key, x⟩ := e
    rw [entrySites]
    exact (hparts (key, x) (by simp) _).append (ih fun e he => hparts e (by simp [he]))

theorem closed_map {entries : List (Scalar × Json)}
    (hparts : ∀ e ∈ entries, ∀ name, Closed (sites name e.2)) (name : String) :
    Closed (sites name (.map entries)) := by
  have hbelow : Closed (entrySites name (propertyNames entries) entries) := closed_entrySites hparts
  rw [sites]
  constructor
  · intro name' entries' hmem e he
    rcases List.mem_append.mp hmem with hmem | hmem
    · exact List.mem_append_left _ (hbelow.entry hmem e he)
    · obtain ⟨rfl, rfl⟩ : name' = name ∧ entries' = entries := by simpa using hmem
      exact List.mem_append_left _ (mem_entrySites.mpr ⟨e, he, self_mem_sites _ _⟩)
  · intro name' items hmem
    rcases List.mem_append.mp hmem with hmem | hmem
    · exact List.mem_append_left _ (hbelow.element hmem)
    · simp at hmem

theorem closed_list {items : List Json} (hv : IsDocument q (.list items)) {name : String}
    (hbelow : Closed (itemSites name items)) : Closed (sites name (.list items)) := by
  rw [sites]
  constructor
  · intro name' entries' hmem e he
    rcases List.mem_append.mp hmem with hmem | hmem
    · exact List.mem_append_left _ (hbelow.entry hmem e he)
    · simp at hmem
  · intro name' items' hmem
    rcases List.mem_append.mp hmem with hmem | hmem
    · exact List.mem_append_left _ (hbelow.element hmem)
    · obtain ⟨rfl, rfl⟩ : name' = name ∧ items' = items := by simpa using hmem
      have hsites := elementSites_eq hv name'
      rw [elementSites] at hsites
      rw [hsites]
      exact List.mem_append_left _ (self_mem_sites _ _)

theorem closed_sites_and_element (hv : IsDocument q v) : ∀ name,
    Closed (sites name v) ∧ Closed (elementSites name v) := by
  induction hv with
  | scalar =>
    exact fun name => ⟨⟨by simp [sites], by simp [sites]⟩,
      ⟨by simp [elementSites], by simp [elementSites]⟩⟩
  | @list items hparts ih =>
    intro name
    have hbelow : Closed (itemSites name items) := by
      cases items with
      | nil => exact ⟨by simp [itemSites], by simp [itemSites]⟩
      | cons x xs => exact (ih x (by simp) name).2
    exact ⟨closed_list (.list hparts) hbelow, hbelow⟩
  | map hnames honce hparts ih =>
    have hmap := closed_map fun e he name => (ih e he name).1
    exact fun name => ⟨hmap name, hmap (elementName name)⟩

theorem closed_sites (hv : IsDocument q v) (name : String) : Closed (sites name v) :=
  (closed_sites_and_element hv name).1

end Exemplar.Json
