import Exemplar.Store.Sequence
import Mathlib.Data.List.Perm.Basic
import Mathlib.Data.List.Nodup
import Mathlib.Tactic.Linarith

/-! Places that a slice means. They are places of the list and no place comes twice, so that a list
falls apart into what stands at the places and the rest, and putting items in the place of the
former leaves the rest. -/
namespace Exemplar
open scoped List

namespace Span

variable {α : Type} {s : Span} {length : Nat} {xs ys new : List α}

/-- A span of a list of a length. A span with step one is a range of it. -/
structure Within (s : Span) (length : Nat) : Prop where
  lt : ∀ i ∈ s.places, i < length
  nodup : s.places.Nodup
  range : s.step = 1 → 0 ≤ s.start ∧ s.start ≤ length ∧ 0 ≤ s.stop ∧ s.stop ≤ length

theorem length_places (s : Span) : s.places.length = s.count := by
  simp [places]

theorem within_of_up (hstep : 0 < s.step) (hstart : 0 ≤ s.start ∧ s.start ≤ length)
    (hstop : 0 ≤ s.stop ∧ s.stop ≤ length) : s.Within length := by
  have hbefore {i : Nat} (hi : i < s.count) : s.start + i * s.step < s.stop := by
    rw [count, if_pos hstep] at hi
    have hdiv : (i : Int) + 1 ≤ (s.stop - s.start + s.step - 1) / s.step := by omega
    have hmul := (Int.le_ediv_iff_mul_le hstep).mp hdiv
    linarith
  have hafter (i : Nat) : 0 ≤ (i : Int) * s.step := Int.mul_nonneg (by omega) (by omega)
  refine ⟨?_, ?_, fun _ => ⟨hstart.1, hstart.2, hstop.1, hstop.2⟩⟩
  · intro p hp
    obtain ⟨i, hi, rfl⟩ := List.mem_map.mp hp
    have hlt := hbefore (List.mem_range.mp hi)
    have hge := hafter i
    omega
  · refine List.Nodup.map_on ?_ List.nodup_range
    intro i _ j _ hij
    have hi := hafter i
    have hj := hafter j
    have hsame : (i : Int) * s.step = j * s.step := by omega
    exact Int.ofNat_inj.mp (Int.eq_of_mul_eq_mul_right (by omega) hsame)

theorem within_of_down (hstep : s.step < 0) (hstart : -1 ≤ s.start ∧ s.start < length)
    (hstop : -1 ≤ s.stop) : s.Within length := by
  have hafter {i : Nat} (hi : i < s.count) : s.stop < s.start + i * s.step := by
    rw [count, if_neg (by omega)] at hi
    have hdiv : (i : Int) + 1 ≤ (s.start - s.stop - s.step - 1) / -s.step := by omega
    have hmul := (Int.le_ediv_iff_mul_le (by omega)).mp hdiv
    linarith
  have hbefore (i : Nat) : (i : Int) * s.step ≤ 0 :=
    Int.mul_nonpos_of_nonneg_of_nonpos (by omega) (by omega)
  refine ⟨?_, ?_, fun hone => by omega⟩
  · intro p hp
    obtain ⟨i, hi, rfl⟩ := List.mem_map.mp hp
    have hlt := hafter (List.mem_range.mp hi)
    have hle := hbefore i
    omega
  · refine List.Nodup.map_on ?_ List.nodup_range
    intro i hi j hj hij
    have hlti := hafter (List.mem_range.mp hi)
    have hltj := hafter (List.mem_range.mp hj)
    have hsame : (i : Int) * s.step = j * s.step := by omega
    exact Int.ofNat_inj.mp (Int.eq_of_mul_eq_mul_right (by omega) hsame)

end Span

/-- What a slice means for a list are places of the list. -/
theorem Slice.within {slice : Slice} {length : Nat} {s : Span} (h : slice.span? length = some s) :
    s.Within length := by
  unfold span? at h
  by_cases hzero : slice.step.getD 1 = 0
  · simp [hzero] at h
  · by_cases hup : slice.step.getD 1 > 0
    · simp only [hzero, hup, if_true, if_false] at h
      obtain rfl := Option.some.inj h
      refine Span.within_of_up hup ?_ ?_
      all_goals
        dsimp only
        unfold bound
        split
        · omega
        · split <;> omega
    · simp only [hzero, hup, if_false] at h
      obtain rfl := Option.some.inj h
      refine Span.within_of_down (by dsimp only; omega) ?_ ?_
      all_goals
        dsimp only
        unfold bound
        split
        · omega
        · split <;> omega

namespace Span

variable {α : Type} {s : Span} {p : Nat → Bool} {xs ys new : List α} {k : Nat}

/-- The items of a list, counted from a number, whose numbers are not hit. -/
def without (p : Nat → Bool) (xs : List α) (k : Nat) : List α :=
  (xs.zipIdx k).filterMap fun (x, i) => if p i then none else some x

theorem without_cons (p : Nat → Bool) (x : α) (xs : List α) (k : Nat) :
    without p (x :: xs) k = if p k then without p xs (k + 1) else x :: without p xs (k + 1) := by
  by_cases hk : p k <;> simp [without, List.zipIdx_cons, hk]

theorem without_append (p : Nat → Bool) (xs ys : List α) (k : Nat) :
    without p (xs ++ ys) k = without p xs k ++ without p ys (k + xs.length) := by
  simp [without, List.zipIdx_append]

theorem without_none (h : ∀ i, k ≤ i → i < k + xs.length → p i = false) : without p xs k = xs := by
  induction xs generalizing k with
  | nil => rfl
  | cons x xs ih =>
    have hk : p k = false := h k (Nat.le_refl k) (by simp)
    have hrest := ih (k := k + 1) fun i hi hlt => h i (by omega) (by simp; omega)
    rw [without_cons, hk, hrest]
    rfl

theorem without_all (h : ∀ i, k ≤ i → i < k + xs.length → p i = true) : without p xs k = [] := by
  induction xs generalizing k with
  | nil => rfl
  | cons x xs ih =>
    have hk : p k = true := h k (Nat.le_refl k) (by simp)
    have hrest := ih (k := k + 1) fun i hi hlt => h i (by omega) (by simp; omega)
    rw [without_cons, hk, hrest]
    rfl

/-- Writing at a number that is hit is not seen. -/
theorem without_set {i : Nat} (hi : p (k + i) = true) (x : α) :
    without p (xs.set i x) k = without p xs k := by
  induction xs generalizing i k with
  | nil => rfl
  | cons y xs ih =>
    cases i with
    | zero =>
      have hk : p k = true := hi
      simp only [List.set_cons_zero, without_cons, hk, if_true]
    | succ i =>
      have hrest : without p (xs.set i x) (k + 1) = without p xs (k + 1) :=
        ih (by rw [← hi]; congr 1; omega)
      simp only [List.set_cons_succ, without_cons, hrest]

theorem reject_eq (s : Span) (xs : List α) : s.reject xs = without s.places.contains xs 0 := rfl

theorem perm_select_reject (h : s.places.Nodup) (xs : List α) :
    (s.select xs ++ s.reject xs).Perm xs := by
  -- both parts are taken from the numbered items
  let hit : α × Nat → Bool := fun e => s.places.contains e.2
  have hnumbered : xs.zipIdx.Nodup := by
    refine List.Nodup.of_map Prod.snd ?_
    rw [List.zipIdx_map_snd]
    exact List.nodup_range'
  have hselect : (s.places.filterMap fun i => xs[i]?.map fun x => (x, i)).Perm
      (xs.zipIdx.filter hit) := by
    refine (List.perm_ext_iff_of_nodup ?_ (hnumbered.filter _)).mpr ?_
    · refine h.filterMap ?_
      intro i j e hi hj
      obtain ⟨x, -, rfl⟩ := Option.map_eq_some_iff.mp (Option.mem_def.mp hi)
      obtain ⟨y, -, hy⟩ := Option.map_eq_some_iff.mp (Option.mem_def.mp hj)
      exact (congrArg Prod.snd hy).symm
    · rintro ⟨x, i⟩
      simp [hit, List.mem_zipIdx_iff_getElem?, and_comm]
  have hselected : s.select xs = (s.places.filterMap fun i => xs[i]?.map fun x => (x, i)).map
      Prod.fst := by
    simp only [select, List.map_filterMap, Option.map_map]
    congr 1
    funext i
    cases xs[i]? <;> rfl
  have hrejected : s.reject xs = (xs.zipIdx.filter fun e => !hit e).map Prod.fst := by
    rw [reject, ← List.filterMap_eq_map, List.filterMap_filter]
    congr 1
    funext e
    by_cases he : hit e = true <;> simp_all [hit]
  calc s.select xs ++ s.reject xs
      = (s.places.filterMap fun i => xs[i]?.map fun x => (x, i)).map Prod.fst ++
          (xs.zipIdx.filter fun e => !hit e).map Prod.fst := by rw [hselected, hrejected]
    _ ~ (xs.zipIdx.filter hit).map Prod.fst ++ (xs.zipIdx.filter fun e => !hit e).map Prod.fst :=
        (hselect.map _).append_right _
    _ = (xs.zipIdx.filter hit ++ xs.zipIdx.filter fun e => !hit e).map Prod.fst :=
        (List.map_append ..).symm
    _ ~ xs.zipIdx.map Prod.fst := (List.filter_append_perm hit xs.zipIdx).map _
    _ = xs := List.zipIdx_map_fst 0 xs

def writeAll (xs : List α) (writes : List (Nat × α)) : List α :=
  writes.foldl (fun acc (i, x) => acc.set i x) xs

theorem getElem?_writeAll {writes : List (Nat × α)} {i : Nat} (hi : i ∉ writes.map Prod.fst) :
    (writeAll xs writes)[i]? = xs[i]? := by
  induction writes generalizing xs with
  | nil => rfl
  | cons w writes ih =>
    simp only [List.map_cons, List.mem_cons, not_or] at hi
    have hrest : (writeAll (xs.set w.1 w.2) writes)[i]? = (xs.set w.1 w.2)[i]? := ih hi.2
    rw [List.getElem?_set_ne (Ne.symm hi.1)] at hrest
    exact hrest

theorem without_writeAll {writes : List (Nat × α)} (h : ∀ w ∈ writes, p w.1 = true) :
    without p (writeAll xs writes) 0 = without p xs 0 := by
  induction writes generalizing xs with
  | nil => rfl
  | cons w writes ih =>
    have hfirst : p (0 + w.1) = true := by simpa using h w (by simp)
    have hrest : without p (writeAll (xs.set w.1 w.2) writes) 0 = without p (xs.set w.1 w.2) 0 :=
      ih fun w' hw' => h w' (by simp [hw'])
    rw [without_set hfirst] at hrest
    exact hrest

/-- What was written is found at the places where it was written. -/
theorem filterMap_writeAll {ps : List Nat} (hnodup : ps.Nodup) (hlt : ∀ i ∈ ps, i < xs.length)
    (hlength : new.length = ps.length) :
    ps.filterMap (fun i => (writeAll xs (ps.zip new))[i]?) = new := by
  induction ps generalizing xs new with
  | nil => exact (List.length_eq_zero_iff.mp hlength).symm
  | cons i ps ih =>
    obtain ⟨hi, hps⟩ := List.nodup_cons.mp hnodup
    cases new with
    | nil => cases hlength
    | cons x new =>
      have hlength : new.length = ps.length := Nat.succ.inj hlength
      have hmap : (ps.zip new).map Prod.fst = ps := List.map_fst_zip (Nat.le_of_eq hlength.symm)
      have hfound : (writeAll (xs.set i x) (ps.zip new))[i]? = some x := by
        rw [getElem?_writeAll (by rwa [hmap]), List.getElem?_set_self (hlt i (by simp))]
      have hlater : ∀ j ∈ ps, j < (xs.set i x).length := by
        intro j hj
        rw [List.length_set]
        exact hlt j (by simp [hj])
      have hrest := ih hps hlater hlength
      rw [List.zip_cons_cons]
      change List.filterMap (fun j => (writeAll (xs.set i x) (ps.zip new))[j]?) (i :: ps) = _
      rw [List.filterMap_cons_some hfound, hrest]

theorem mem_places_of_one (hstep : s.step = 1) (hstart : 0 ≤ s.start) {i : Nat} :
    i ∈ s.places ↔ s.start ≤ i ∧ (i : Int) < s.stop := by
  have hcount : s.count = (s.stop - s.start).toNat := by
    rw [count, hstep]
    simp
  rw [places, List.mem_map]
  constructor
  · rintro ⟨j, hj, rfl⟩
    rw [List.mem_range, hcount] at hj
    rw [hstep]
    omega
  · rintro ⟨hge, hlt⟩
    refine ⟨(i - s.start).toNat, ?_, ?_⟩
    · rw [List.mem_range, hcount]
      omega
    · rw [hstep]
      omega

/-- A range cuts out what stands between its ends. -/
theorem reject_of_one (h : s.Within xs.length) (hstep : s.step = 1) :
    s.reject xs = xs.take s.start.toNat ++ xs.drop (max s.start s.stop).toNat := by
  obtain ⟨hstart, hstart', hstop, hstop'⟩ := h.range hstep
  have hmem (i : Nat) : s.places.contains i = true ↔ s.start ≤ i ∧ (i : Int) < s.stop := by
    rw [List.contains_iff_mem]
    exact mem_places_of_one hstep hstart
  let a := s.start.toNat
  let b := (max s.start s.stop).toNat
  have hsplit : xs = xs.take a ++ ((xs.drop a).take (b - a) ++ xs.drop b) := by
    have hab : a + (b - a) = b := by omega
    have hdrop : xs.drop b = (xs.drop a).drop (b - a) := by rw [List.drop_drop, hab]
    rw [hdrop, List.take_append_drop, List.take_append_drop]
  have hbefore : without s.places.contains (xs.take a) 0 = xs.take a := by
    refine without_none fun i _ hi => ?_
    rw [List.length_take] at hi
    rw [Bool.eq_false_iff, Ne, hmem]
    omega
  have hmiddle : without s.places.contains ((xs.drop a).take (b - a)) a = [] := by
    refine without_all fun i hge hi => ?_
    rw [List.length_take] at hi
    rw [hmem]
    omega
  have hafter : without s.places.contains (xs.drop b) b = xs.drop b := by
    refine without_none fun i hge _ => ?_
    rw [Bool.eq_false_iff, Ne, hmem]
    omega
  have hlength : (xs.take a).length = a := by
    rw [List.length_take]
    omega
  have hlength' : ((xs.drop a).take (b - a)).length = b - a := by
    rw [List.length_take, List.length_drop]
    omega
  rw [reject_eq]
  conv_lhs => rw [hsplit]
  rw [without_append, without_append, hlength, hlength', hbefore, Nat.zero_add, hmiddle]
  have hab : a + (b - a) = b := by omega
  rw [hab, hafter]
  rfl

/-- A list in which items were put in the place of a span consists of these and of the rest. -/
theorem perm_replace (h : s.Within xs.length) (hys : s.replace? xs new = some ys) :
    ys.Perm (new ++ s.reject xs) := by
  unfold replace? at hys
  by_cases hstep : s.step = 1
  · rw [if_pos hstep] at hys
    obtain rfl := Option.some.inj hys
    rw [reject_of_one h hstep, ← List.append_assoc]
    exact List.perm_append_comm.append_right _
  · rw [if_neg hstep] at hys
    by_cases hlength : new.length = s.count
    · rw [if_pos hlength] at hys
      have hys : writeAll xs (s.places.zip new) = ys := Option.some.inj hys
      have hselect : s.select ys = new := by
        rw [← hys]
        exact filterMap_writeAll h.nodup h.lt (by rw [hlength, length_places])
      have hreject : s.reject ys = s.reject xs := by
        rw [← hys, reject_eq, reject_eq]
        refine without_writeAll fun w hw => ?_
        rw [List.contains_iff_mem]
        exact (List.of_mem_zip hw).1
      rw [← hselect, ← hreject]
      exact (perm_select_reject h.nodup ys).symm
    · rw [if_neg hlength] at hys
      cases hys

end Span
end Exemplar
