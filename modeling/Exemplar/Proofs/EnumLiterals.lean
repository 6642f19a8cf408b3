import Exemplar.Proofs.EqualScalars
import Exemplar.Proofs.LastingNames
import Exemplar.Proofs.Origins
import Mathlib.Data.List.Pairwise

/-! Codes of literals. An enum has a code for the first literal of each text, and a value has the code
of the first literal that compares equal to it. So literals and codes translate back and forth exactly
if no two different literals have the same text or compare equal. -/
namespace Exemplar

def firstTexts {α : Type} (text : α → String) (xs : List α) : List α :=
  xs.eraseDupsBy fun x y => text x == text y

section FirstTexts

variable {α β : Type} {text : α → String}

theorem firstTexts_cons (x : α) (xs : List α) : firstTexts text (x :: xs) =
    x :: firstTexts text (xs.filter fun y => decide (text y ≠ text x)) := by
  have hother : (fun y => decide ((text y == text x) = false)) = fun y => decide (text y ≠ text x) :=
    funext fun y => decide_eq_decide.mpr beq_eq_false_iff_ne
  rw [firstTexts, List.eraseDupsBy_cons, hother]
  rfl

theorem firstTexts_map (f : β → α) : (xs : List β) →
    firstTexts text (xs.map f) = (firstTexts (text ∘ f) xs).map f
  | [] => rfl
  | x :: xs => by
    rw [List.map_cons, firstTexts_cons, firstTexts_cons, List.map_cons, List.filter_map,
      firstTexts_map f (xs.filter _)]
    rfl
termination_by xs => xs.length
decreasing_by exact Nat.lt_succ_of_le (List.length_filter_le _ xs)

theorem mem_of_mem_firstTexts {x : α} : (xs : List α) → x ∈ firstTexts text xs → x ∈ xs
  | [], h => h
  | y :: xs, h => by
    rw [firstTexts_cons] at h
    rcases List.mem_cons.mp h with rfl | h
    · exact List.mem_cons_self
    · exact List.mem_cons_of_mem y (List.mem_filter.mp (mem_of_mem_firstTexts (xs.filter _) h)).1
termination_by xs => xs.length
decreasing_by exact Nat.lt_succ_of_le (List.length_filter_le _ xs)

theorem exists_mem_firstTexts {x : α} : (xs : List α) → x ∈ xs →
    ∃ y ∈ firstTexts text xs, text y = text x
  | y :: xs, h => by
    rw [firstTexts_cons]
    by_cases htext : text x = text y
    · exact ⟨y, List.mem_cons_self, htext.symm⟩
    · have hne : x ≠ y := fun heq => htext (congrArg text heq)
      have hrest : x ∈ xs.filter fun z => decide (text z ≠ text y) :=
        List.mem_filter.mpr ⟨(List.mem_cons.mp h).resolve_left hne, decide_eq_true htext⟩
      obtain ⟨z, hz, hsame⟩ := exists_mem_firstTexts _ hrest
      exact ⟨z, List.mem_cons_of_mem y hz, hsame⟩
termination_by xs => xs.length
decreasing_by exact Nat.lt_succ_of_le (List.length_filter_le _ xs)

theorem pairwise_firstTexts : (xs : List α) →
    (firstTexts text xs).Pairwise fun x y => text x ≠ text y
  | [] => .nil
  | x :: xs => by
    rw [firstTexts_cons]
    refine .cons (fun y hy => ?_) (pairwise_firstTexts (xs.filter _))
    have hother := of_decide_eq_true (List.mem_filter.mp (mem_of_mem_firstTexts _ hy)).2
    exact Ne.symm hother
termination_by xs => xs.length
decreasing_by exact Nat.lt_succ_of_le (List.length_filter_le _ xs)

theorem eq_of_mem_firstTexts {xs : List α} {x y : α} (hx : x ∈ firstTexts text xs)
    (hy : y ∈ firstTexts text xs) (h : text x = text y) : x = y := by
  have : Std.Symm fun x y : α => text x ≠ text y := ⟨fun _ _ => Ne.symm⟩
  by_contra hne
  exact (pairwise_firstTexts xs).forall hx hy hne h

theorem nodup_firstTexts (xs : List α) : (firstTexts text xs).Nodup :=
  (pairwise_firstTexts xs).imp fun h heq => h (congrArg text heq)

end FirstTexts

namespace Inference
open NameTable

def takeLiteral (acc : NameTable × List (String × Json)) (literal : Json) :
    NameTable × List (String × Json) :=
  if acc.1.contains (.str literal.text) then acc
  else
    let table := acc.1.add Identifier.codeOfText (.str literal.text)
    (table, acc.2 ++ [((table.name? (.str literal.text)).getD "", literal)])

theorem enumValues_eq (vs : List Json) : enumValues vs = (vs.foldl takeLiteral (.empty, [])).2 := rfl

/-- Literals with their codes, and the table that gave these to their texts. -/
structure Coded (acc : NameTable × List (String × Json)) (done : List Json) : Prop where
  table : acc.1.Names (done.map fun v => .str v.text)
  names : acc.1.names = acc.2.map fun e => (.str e.2.text, e.1)
  literals : acc.2.map Prod.snd = done

variable {acc : NameTable × List (String × Json)} {done : List Json}

theorem Coded.contains_iff (h : Coded acc done) (v : Json) :
    acc.1.contains (.str v.text) = true ↔ ∃ w ∈ done, w.text = v.text := by
  have hkeys : Assoc.keys acc.1.names = done.map fun v => .str v.text := h.table.keys_eq
  rw [NameTable.contains, Assoc.has, ← not_iff_not, Bool.not_eq_true, Option.isSome_eq_false_iff,
    Option.isNone_iff_eq_none, Assoc.get?_none]
  constructor
  · rintro hnone ⟨w, hw, htext⟩
    have hmem : Scalar.str w.text ∈ Assoc.keys acc.1.names := by
      rw [hkeys]
      exact List.mem_map_of_mem (f := fun v : Json => Scalar.str v.text) hw
    obtain ⟨e, he, hkey⟩ := List.mem_map.mp hmem
    have hother := hnone e he
    rw [hkey, (Json.same_str w.text v.text).mpr htext] at hother
    cases hother
  · intro hnone e he
    have hmem : e.1 ∈ done.map fun v => Scalar.str v.text := by
      rw [← hkeys]
      exact List.mem_map_of_mem he
    obtain ⟨w, hw, hkey⟩ := List.mem_map.mp hmem
    rw [← hkey, ← Bool.not_eq_true, Json.same_str]
    exact fun htext => hnone ⟨w, hw, htext⟩

theorem Coded.take (h : Coded acc done) {v : Json} (hnew : acc.1.contains (.str v.text) = false) :
    Coded (takeLiteral acc v) (done ++ [v]) := by
  have hkey : (Scalar.str v.text == Scalar.str v.text) = true := (Json.same_str _ _).mpr rfl
  have hnone : Assoc.get? acc.1.names (.str v.text) = none := by
    simpa [NameTable.contains, Assoc.has] using hnew
  obtain ⟨code, hadd⟩ : ∃ code, acc.1.add Identifier.codeOfText (.str v.text) =
      acc.1.bind (.str v.text) code := ⟨_, by rw [NameTable.add, hnew]; rfl⟩
  have hname : (acc.1.bind (.str v.text) code).name? (.str v.text) = some code :=
    Assoc.get?_insert_self _ hkey code
  have htake : takeLiteral acc v = (acc.1.bind (.str v.text) code, acc.2 ++ [(code, v)]) := by
    simp only [takeLiteral, hnew, Bool.false_eq_true, if_false, hadd, hname, Option.getD_some]
  rw [htake]
  refine ⟨?_, ?_, ?_⟩
  · rw [← hadd, List.map_append]
    refine h.table.add (fun text => (Identifier.isLegal_codeOfText text).word) fun k hk => ?_
    obtain ⟨e, he, rfl⟩ := List.mem_map.mp (h.table.keys_eq ▸ hk)
    exact Assoc.get?_none.mp hnone e he
  · rw [NameTable.bind, Assoc.insert_new (Assoc.get?_none.mp hnone), h.names, List.map_append]
    rfl
  · rw [List.map_append, h.literals]
    rfl

theorem Coded.takeAll (vs : List Json) (h : Coded acc done) :
    Coded (vs.foldl takeLiteral acc)
      (done ++ firstTexts Json.text (vs.filter fun v => decide (∀ w ∈ done, w.text ≠ v.text))) := by
  induction vs generalizing acc done with
  | nil => simpa [firstTexts] using h
  | cons v vs ih =>
    rw [List.foldl_cons]
    cases hcontains : acc.1.contains (.str v.text) with
    | true =>
      obtain ⟨w, hw, htext⟩ := (h.contains_iff v).mp hcontains
      rw [takeLiteral, if_pos hcontains, List.filter_cons_of_neg (by simpa using ⟨w, hw, htext⟩)]
      exact ih h
    | false =>
      have hnew : ∀ w ∈ done, w.text ≠ v.text := fun w hw htext => by
        rw [(h.contains_iff v).mpr ⟨w, hw, htext⟩] at hcontains
        cases hcontains
      have hstep := ih (h.take hcontains)
      have hrest : (vs.filter fun x => decide (∀ w ∈ done ++ [v], w.text ≠ x.text)) =
          (vs.filter fun x => decide (∀ w ∈ done, w.text ≠ x.text)).filter
            fun x => decide (x.text ≠ v.text) := by
        rw [List.filter_filter]
        congr 1
        funext x
        simp [or_imp, forall_and, and_comm, eq_comm]
      rw [hrest, List.append_assoc, List.singleton_append, ← firstTexts_cons] at hstep
      rwa [List.filter_cons_of_pos (by simpa using hnew)]

/-- An enum has a code of its own for the first literal of each text. -/
theorem enumValues_codes (vs : List Json) : ((enumValues vs).map Prod.fst).Nodup ∧
    (enumValues vs).map Prod.snd = firstTexts Json.text vs := by
  have hempty : Coded (.empty, []) [] := ⟨names_empty, rfl, rfl⟩
  have hall := hempty.takeAll vs
  rw [List.nil_append, List.filter_eq_self.mpr (by simp)] at hall
  rw [enumValues_eq]
  refine ⟨?_, hall.literals⟩
  have honce := hall.table.once
  rwa [hall.names, List.map_map] at honce

end Inference

namespace Definition

variable {d : Definition}

theorem literal?_iff (hcodes : (d.values.map Prod.fst).Nodup) {code : String} {v : Json} :
    d.literal? code = some v ↔ (code, v) ∈ d.values := by
  rw [literal?, Option.map_eq_some_iff]
  constructor
  · rintro ⟨e, hfind, rfl⟩
    have hcode : e.1 = code := by simpa using List.find?_some hfind
    rw [← hcode]
    exact List.mem_of_find?_eq_some hfind
  · intro hmem
    have hsome : (d.values.find? fun e => e.1 == code).isSome = true :=
      List.find?_isSome.mpr ⟨_, hmem, beq_self_eq_true code⟩
    obtain ⟨e, hfind⟩ := Option.isSome_iff_exists.mp hsome
    have hcode : e.1 = code := by simpa using List.find?_some hfind
    exact ⟨e, hfind, congrArg Prod.snd (List.inj_on_of_nodup_map hcodes
      (List.mem_of_find?_eq_some hfind) hmem hcode)⟩

/-- From a value to its code and back: the first literal that compares equal to it. -/
theorem bind_literal? (hcodes : (d.values.map Prod.fst).Nodup) (v : Json) :
    (d.code? v).bind d.literal? = (d.values.map Prod.snd).find? (· == v) := by
  have hfind : (d.values.map Prod.snd).find? (· == v) =
      (d.values.find? fun e => e.2 == v).map Prod.snd := List.find?_map ..
  rw [hfind, code?]
  cases hfound : d.values.find? fun e => e.2 == v with
  | none => rfl
  | some e => exact (literal?_iff hcodes).mpr (List.mem_of_find?_eq_some hfound)

/-- From a code to its literal and back. -/
theorem code?_iff (hcodes : (d.values.map Prod.fst).Nodup) (honce : (d.values.map Prod.snd).Nodup)
    {code : String} {v : Json} (hmem : d.literal? code = some v) :
    d.code? v = some code ↔ (d.values.map Prod.snd).find? (· == v) = some v := by
  rw [← bind_literal? hcodes]
  constructor
  · intro hcode
    rw [hcode]
    exact hmem
  · intro hback
    obtain ⟨other, hother, hliteral⟩ := Option.bind_eq_some_iff.mp hback
    rw [literal?_iff hcodes] at hmem hliteral
    rw [hother]
    exact congrArg (some ∘ Prod.fst) (List.inj_on_of_nodup_map honce hliteral hmem rfl)

section

variable {xs : List Scalar} (hcodes : (d.values.map Prod.fst).Nodup)
  (hliterals : d.values.map Prod.snd = xs.map .scalar)
include hcodes hliterals

theorem bind_literal?_scalar (x : Scalar) :
    (d.code? (.scalar x)).bind d.literal? = (xs.find? (· == x)).map .scalar := by
  rw [bind_literal? hcodes, hliterals]
  exact List.find?_map ..

theorem bind_literal?_scalar_iff (x : Scalar) :
    (∃ code, d.code? (.scalar x) = some code ∧ d.literal? code = some (.scalar x)) ↔
      xs.find? (· == x) = some x := by
  rw [← Option.bind_eq_some_iff, bind_literal?_scalar hcodes hliterals, Option.map_eq_some_iff]
  simp

theorem code?_scalar_iff (honce : xs.Nodup) {code : String} {x : Scalar}
    (h : d.literal? code = some (.scalar x)) :
    d.code? (.scalar x) = some code ↔ xs.find? (· == x) = some x := by
  have hvalues : (d.values.map Prod.snd).Nodup := by
    rw [hliterals]
    exact honce.map fun _ _ heq => Json.scalar.inj heq
  rw [code?_iff hcodes hvalues h, ← bind_literal?_scalar_iff hcodes hliterals,
    ← bind_literal? hcodes, Option.bind_eq_some_iff]

/-- The literals that codes have are all there are. -/
theorem exists_literal?_iff (x : Scalar) :
    (∃ code, d.literal? code = some (.scalar x)) ↔ x ∈ xs := by
  have hmem : Json.scalar x ∈ d.values.map Prod.snd ↔ x ∈ xs := by
    rw [hliterals, List.mem_map]
    simp
  rw [← hmem, List.mem_map]
  constructor
  · rintro ⟨code, hcode⟩
    exact ⟨_, (literal?_iff hcodes).mp hcode, rfl⟩
  · rintro ⟨⟨code, v⟩, he, rfl⟩
    exact ⟨code, (literal?_iff hcodes).mpr he⟩

end

end Definition

namespace Scalar

/-- Everything is the first that compares equal to it exactly if only what is the same does. -/
theorem find?_self_iff (xs : List Scalar) : (∀ x ∈ xs, xs.find? (· == x) = some x) ↔
    ∀ x ∈ xs, ∀ y ∈ xs, (x == y) = true ↔ x = y := by
  constructor
  · intro hfound x hx y hy
    refine ⟨fun hsame => ?_, ?_⟩
    · -- What compares equal to one of the two compares equal to the other.
      have hequal : (fun z : Scalar => z == x) = fun z => z == y :=
        funext fun z => Bool.eq_iff_iff.mpr ⟨(BEq.trans · hsame), (BEq.trans · (BEq.symm hsame))⟩
      have hfirst := hfound x hx
      rw [hequal, hfound y hy] at hfirst
      exact (Option.some.inj hfirst).symm
    · rintro rfl
      simpa using List.find?_some (hfound x hx)
  · intro hapart x hx
    have hsome : (xs.find? (· == x)).isSome = true :=
      List.find?_isSome.mpr ⟨x, hx, (hapart x hx x hx).mpr rfl⟩
    obtain ⟨y, hfind⟩ := Option.isSome_iff_exists.mp hsome
    rw [hfind, (hapart y (List.mem_of_find?_eq_some hfind) x hx).mp
      (by simpa using List.find?_some hfind)]

/-- Every scalar is the first that compares equal to it among the first of each text exactly if no two
different ones have the same text or compare equal. -/
theorem find?_firstTexts_iff (xs : List Scalar) :
    (∀ x ∈ xs, (firstTexts plainText xs).find? (· == x) = some x) ↔
      ∀ x ∈ xs, ∀ y ∈ xs, (x.plainText = y.plainText → x = y) ∧ ((x == y) = true ↔ x = y) := by
  have hsubset {x : Scalar} : x ∈ firstTexts plainText xs → x ∈ xs := mem_of_mem_firstTexts xs
  constructor
  · intro hfound x hx y hy
    have hx := List.mem_of_find?_eq_some (hfound x hx)
    have hy := List.mem_of_find?_eq_some (hfound y hy)
    exact ⟨eq_of_mem_firstTexts hx hy,
      (find?_self_iff _).mp (fun z hz => hfound z (hsubset hz)) x hx y hy⟩
  · intro hapart x hx
    have hfirst : x ∈ firstTexts plainText xs := by
      obtain ⟨y, hy, htext⟩ : ∃ y ∈ firstTexts plainText xs, plainText y = plainText x :=
        exists_mem_firstTexts xs hx
      rwa [(hapart x hx y (hsubset hy)).1 htext.symm]
    exact (find?_self_iff _).mpr (fun y hy z hz => (hapart y (hsubset hy) z (hsubset hz)).2) x hfirst

end Scalar

namespace Registry
open Inference

variable {options : Options} {docs : List Document}

/-- An enum of documents has the literals that stand in a map of one of them. -/
theorem exists_literals {name : String} {d : Definition}
    (h : (ofDocuments options docs).get? name = some d) (hkind : d.kind = .enum) :
    ∃ doc ∈ docs, ∃ entries v, doc.sample.Part (.map entries) ∧
      Markers.value? (doc.markers options).enumKey entries = some v ∧
      d.values = enumValues (literalsOf v) := by
  obtain ⟨-, doc, hdoc, e, x, hmade, -, -, hshape, -, rfl⟩ := exists_definition h
  rw [kind_resolvedIn, Definition.kind, hshape] at hkind
  have hvalues : (resolvedIn (Catalogue.empty.addDocuments options docs).types x).values =
      e.values := by
    rw [Definition.values, Definition.values, shape_resolvedIn, hshape]
    cases e.shape <;> rfl
  rcases hmade with hdefined | rfl
  · obtain ⟨entries, v, hpart, hmarker, heq⟩ :=
      (madeOf_definitions options doc e hdefined).values hkind
    exact ⟨doc, hdoc, entries, v, hpart, hmarker, hvalues.trans heq⟩
  · cases hkind

/-- The literals of every enum are what stands under the marker in a map of a document. Where these
are scalars, there is a code for the first of each text. From a literal to its code and back leads to
the first that compares equal to it, and from a code to its literal and back to the code of that one.
So all literals are translated back and forth exactly if no two different ones have the same text or
compare equal, and each equals itself; then all codes are, too. -/
theorem code_of_literal {name : String} {d : Definition}
    (hget : (ofDocuments options docs).get? name = some d) (hkind : d.kind = .enum) :
    ∃ doc ∈ docs, ∃ entries v, doc.sample.Part (.map entries) ∧
      Markers.value? (doc.markers options).enumKey entries = some v ∧
      ∀ xs : List Scalar, literalsOf v = xs.map .scalar →
        let firsts := firstTexts Scalar.plainText xs
        (d.values.map Prod.fst).Nodup ∧ d.values.map Prod.snd = firsts.map .scalar ∧
        (∀ x : Scalar, (d.code? (.scalar x)).bind d.literal? =
          (firsts.find? (· == x)).map .scalar) ∧
        (∀ code x, d.literal? code = some (.scalar x) →
          (d.code? (.scalar x) = some code ↔ firsts.find? (· == x) = some x)) ∧
        ((∀ x ∈ xs, ∃ code, d.code? (.scalar x) = some code ∧
            d.literal? code = some (.scalar x)) ↔
          ∀ x ∈ xs, ∀ y ∈ xs, (x.plainText = y.plainText → x = y) ∧ ((x == y) = true ↔ x = y)) ∧
        ((∀ code x, d.literal? code = some (.scalar x) → d.code? (.scalar x) = some code) ↔
          ∀ x ∈ firsts, ∀ y ∈ firsts, (x == y) = true ↔ x = y) := by
  obtain ⟨doc, hdoc, entries, v, hpart, hmarker, hvalues⟩ := exists_literals hget hkind
  refine ⟨doc, hdoc, entries, v, hpart, hmarker, fun xs hxs => ?_⟩
  obtain ⟨hcodes, hliterals⟩ := enumValues_codes (literalsOf v)
  rw [← hvalues] at hcodes hliterals
  rw [hxs, firstTexts_map] at hliterals
  have hliterals : d.values.map Prod.snd = (firstTexts Scalar.plainText xs).map .scalar := hliterals
  have hcode {code : String} {x : Scalar} (hx : d.literal? code = some (.scalar x)) :=
    Definition.code?_scalar_iff hcodes hliterals (nodup_firstTexts xs) hx
  refine ⟨hcodes, hliterals, Definition.bind_literal?_scalar hcodes hliterals,
    fun code x hx => hcode hx, ?_, ?_⟩
  · rw [← Scalar.find?_firstTexts_iff]
    exact forall₂_congr fun x _ => Definition.bind_literal?_scalar_iff hcodes hliterals x
  · rw [← Scalar.find?_self_iff]
    constructor
    · intro hall x hx
      obtain ⟨code, hx⟩ := (Definition.exists_literal?_iff hcodes hliterals x).mpr hx
      exact (hcode hx).mp (hall code x hx)
    · intro hall code x hx
      exact (hcode hx).mpr (hall x ((Definition.exists_literal?_iff hcodes hliterals x).mp ⟨code, hx⟩))

def mixedDocument : Document where
  name := "E"
  source := "E.jschema"
  value := .map [(.str "enum",
    .list [.scalar (.int 1), .scalar (.bool true), .str "1", .str "x"])]

theorem code_of_literal_mixed : ∃ d, (ofDocuments {} [mixedDocument]).get? "E" = some d ∧
    (d.code? (.scalar (.bool true))).bind d.literal? = some (.scalar (.int 1)) ∧
    (d.code? (.str "1")).bind d.literal? = none ∧
    (d.code? (.str "x")).bind d.literal? = some (.str "x") := by
  have hfound : ∃ d ∈ (ofDocuments {} [mixedDocument]).get? "E", d.kind = .enum := by
    decide +kernel
  obtain ⟨d, hget, hkind⟩ := hfound
  obtain ⟨doc, hdoc, entries, v, hpart, hmarker, hall⟩ := code_of_literal hget hkind
  obtain rfl := List.mem_singleton.mp hdoc
  let xs : List Scalar := [.int 1, .bool true, .str "1", .str "x"]
  have hentries : entries = [(.str "enum", .list (xs.map .scalar))] := by
    have hparts {x : Json} (h : mixedDocument.sample.Part x) :
        x = .map [(.str "enum", .list (xs.map .scalar))] ∨ x = .list (xs.map .scalar) ∨
          ∃ s, x = .scalar s := by
      induction h with
      | self => exact .inl rfl
      | item _ hx ih =>
        rcases ih with heq | heq | ⟨s, heq⟩
        · cases heq
        · rw [Json.list.inj heq] at hx
          obtain ⟨s, -, rfl⟩ := List.mem_map.mp hx
          exact .inr (.inr ⟨s, rfl⟩)
        · cases heq
      | entry _ he ih =>
        rcases ih with heq | heq | ⟨s, heq⟩
        · rw [Json.map.inj heq] at he
          rw [List.mem_singleton.mp he]
          exact .inr (.inl rfl)
        · cases heq
        · cases heq
    rcases hparts hpart with heq | heq | ⟨s, heq⟩
    · exact Json.map.inj heq
    · cases heq
    · cases heq
  rw [hentries] at hmarker
  obtain ⟨-, -, hback, -⟩ := hall xs (congrArg literalsOf (Option.some.inj hmarker)).symm
  have hfirst : ((firstTexts Scalar.plainText xs).find? (· == .bool true)) = some (.int 1) := by
    decide +kernel
  have hnone : ((firstTexts Scalar.plainText xs).find? (· == .str "1")) = none := by
    decide +kernel
  have hitself : ((firstTexts Scalar.plainText xs).find? (· == .str "x")) = some (.str "x") := by
    decide +kernel
  refine ⟨d, hget, ?_, ?_, ?_⟩
  · rw [hback, hfirst]
    rfl
  · rw [hback, hnone]
    rfl
  · rw [hback, hitself]
    rfl

end Registry
end Exemplar
