import Exemplar.Proofs.RunOutcomes

/-! Putting values in order only compares them. Whether one value comes before another one, where a
value goes among sorted ones, and how far a run goes is found out without a change to the store. -/
namespace Exemplar.StoreM

theorem reads_firstDifference {same : Value → Value → StoreM Bool}
    (h : ∀ v w, Reads (same v w)) (vs ws : List Value) : Reads (firstDifference same vs ws) := by
  induction vs generalizing ws with
  | nil => exact reads_pure _
  | cons v vs ih =>
    cases ws with
    | nil => exact reads_pure _
    | cons w ws =>
      refine (h v w).bind fun b => ?_
      cases b with
      | true => exact ih ws
      | false => exact reads_pure _

theorem reads_lessWithin (fuel : Nat) (v w : Value) : Reads (lessWithin fuel v w) := by
  fun_induction lessWithin fuel v w with
  | case9 fuel k v l w hkey ih =>
    -- pairs with one key
    refine reads_get.bind fun s => (reads_settled _).bind fun b => ?_
    cases b with
    | true => exact reads_pure _
    | false => exact ih
  | case10 fuel k v l w hkey ih => exact ih
  | case11 fuel r q ih =>
    -- two containers
    refine (reads_node r).bind fun n => (reads_node q).bind fun k => ?_
    split
    · refine (reads_firstDifference reads_compareInside _ _).bind fun rest => ?_
      split
      · exact ih _ _
      · exact reads_pure _
    · exact reads_throw _
  | _ => first | exact reads_pure _ | exact reads_throw _

theorem reads_less (v w : Value) : Reads (less v w) :=
  reads_get.bind fun _ => reads_lessWithin _ v w

theorem reads_placeFor (v : Value) (sorted : Array Value) (steps low high : Nat) :
    Reads (placeFor v sorted steps low high) := by
  induction steps generalizing low high with
  | zero => exact reads_pure low
  | succ steps ih =>
    rw [placeFor]
    split
    · refine (reads_less v _).bind fun b => ?_
      cases b with
      | true => exact ih _ _
      | false => exact ih _ _
    · exact reads_pure low

theorem reads_runFrom (down : Bool) (run vs : List Value) : Reads (runFrom down run vs) := by
  induction vs generalizing run with
  | nil => exact reads_pure _
  | cons v vs ih =>
    cases run with
    | nil => exact reads_pure _
    | cons last run =>
      refine (reads_less v last).bind fun b => ?_
      split
      · exact ih _
      · exact reads_pure _

end Exemplar.StoreM
