import Mathlib.Data.Fintype.Basic
import Mathlib.Tactic

/-!
The enumerations of `config/define.lua` the three-player room uses. A seat is a
`pos` counted from zero. `RoomState.code` is the number the source compares room
states by.
-/
namespace HuluLandlord

abbrev Seat := Fin 3

instance Seat.neZero : NeZero 3 := ⟨Nat.succ_ne_zero 2⟩

abbrev UserId := Nat

theorem Seat.next_ne (p : Seat) : p + 1 ≠ p := by decide +revert

theorem Seat.second_ne (p : Seat) : p + 2 ≠ p := by decide +revert

inductive RetVal
  | succeed_1 | fail_2 | error_3 | exists_4 | notExists_5 | lack_6 | empty_7 | noUse_8 | notOpen_9
  deriving DecidableEq, Repr

inductive RoomState
  | readyOk | dealCard | callLandlord | robLandlord | doubleing | doubleMax | playing | ended
  deriving DecidableEq, Repr

def RoomState.code : RoomState → Nat
  | .readyOk => 15 | .dealCard => 20 | .callLandlord => 30 | .robLandlord => 40
  | .doubleing => 50 | .doubleMax => 60 | .playing => 70 | .ended => 80

inductive PlayerState
  | waiting | readyOk | dealCard | callLandlord | robLandlord | doubleing | doubleMax | playing
  deriving DecidableEq, Repr

inductive PlayerAction
  | callLandlord | notCall | robLandlord | notRob | notDouble | double_2 | double_4
  | doubleMax | notDoubleMax | pass | playCard
  deriving DecidableEq, Repr

inductive PlayCardState
  | default | first | play | normal
  deriving DecidableEq, Repr

/-- The keys of `roomObj.multiple`, and the three announced keys it does not have. -/
inductive MultipleKey
  | init | showCard | callLandlord | robLandlord | bottomCard | bomb | spring | springReverse
  | skill | double | doubleSuper | doubleMax
  deriving DecidableEq, Repr

inductive RoomPlayerOverTag
  | default | broke | max
  deriving DecidableEq, Repr

/-- The plain items and the currency that a room request can spend. -/
inductive ItemID
  | diamond | gameBottomCardCheck | gameDoubleSuper | gameDoubleMax
  deriving DecidableEq, Repr

end HuluLandlord
