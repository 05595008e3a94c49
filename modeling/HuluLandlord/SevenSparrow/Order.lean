import HuluLandlord.SevenSparrow.Stage
import Mathlib.Data.List.TakeWhile

/-!
Who moves next in every run of the seven-sparrow room. A stage shows the room's own side
of it; the other side is the record, whose turns each pass on once.
-/
namespace HuluLandlord.SevenSparrow
open Transition

namespace Message

/-- A prompt after a win, or the answer to one. -/
def isAnswer : Message → Bool
  | .please_recharge .. | .giveup .. => true
  | _ => false

/-- The turn is passed on. -/
def isCall : Message → Bool
  | .next_one_take => true
  | _ => false

def isGameover : Message → Bool
  | .gameover _ => true
  | _ => false

def isWin : Message → Bool
  | .hu .. => true
  | _ => false

/-- The next player's turn ends: he plays a card, or his win is being charged. -/
def endsTurn : Message → Bool
  | .playcard .. | .charge .. => true
  | _ => false

end Message

theorem win_cases {m : Message} (win : m.isWin = true) : ∃ w bills, m = .hu w bills := by
  cases m with
  | hu w bills => exact ⟨w, bills, rfl⟩
  | _ => cases win

/-- What is said before the next player's turn ends. -/
def untilNext (after : List Message) : List Message := after.takeWhile fun m => !m.endsTurn

namespace Room

/-- How many are asked to take or to play. -/
def actingNum (b : Room) : Nat := (List.finRange 4).countP fun p => (b.players p).acting

/-- What will take the game on without a request: a task, or the prompts a win forked,
which count as one and as part of the settlement while that lasts. -/
def continuations (b : Room) : Nat :=
  max (b.tasks.countP Task.isMain) (min 1 (b.tasks.countP fun t => t.prompted.isSome))

/-- The turn is still to be passed on: by a task, or after an answer that is open. -/
def Due (b : Room) : Prop :=
  (∃ w, Task.next_one_take w ∈ b.tasks) ∨
    ∃ p, Task.please_recharge p ∈ b.tasks ∨ (b.players p).status = .recharging

instance (b : Room) : Decidable b.Due :=
  inferInstanceAs (Decidable ((∃ w, Task.next_one_take w ∈ b.tasks) ∨
    ∃ p, Task.please_recharge p ∈ b.tasks ∨ (b.players p).status = .recharging))

/-- All but one have left, and the game ends. -/
def LeftAlone (b : Room) : Prop :=
  b.count_watching_or_exited = 3 ∧ (Task.gameover ∈ b.tasks ∨ b.status = .ended)

end Room

/-- After a win the turn is passed on once and after the last answer, unless the game ends
instead, as `spared` says. -/
structure CalledOnce (spared : Room → Prop) (b : Room) (after : List Message) : Prop where
  once : (untilNext after).countP Message.isCall ≤ 1
  last : ∀ us vs, untilNext after = us ++ .next_one_take :: vs → ∀ m ∈ vs, m.isAnswer = false
  called : (untilNext after).countP Message.isCall = 0 →
    untilNext after = after ∧ (b.Due ∨ spared b)

/-- No two players are asked at once and none while somebody is prompted, each win passes
the turn on once, the game ends once, and while it lasts there is one way on. -/
structure Orderly (spared : Room → Prop) (b : Room) : Prop where
  alone : ∀ p q, (b.players p).acting = true → (b.players q).acting = true → p = q
  recharging : ∀ p q, (b.players p).status = .recharging → (b.players q).acting = false
  wins : ∀ before w bills after, b.record = before ++ .hu w bills :: after →
    CalledOnce spared b after
  gameover : b.record.countP Message.isGameover ≤ 1
  going : b.count_watching_or_exited ≤ 2 → b.pool ≠ [] →
    (∀ p, (b.players p).status ≠ .recharging) → b.actingNum + b.continuations = 1

section Turns
variable {t u : Turn} {ms after : List Message} {m : Message} {called : Bool}

theorem foldlM_cons (done : (m :: ms).foldlM Turn.next t = some u) :
    ∃ v, t.next m = some v ∧ ms.foldlM Turn.next v = some u := by
  rw [List.foldlM_cons] at done
  exact Option.bind_eq_some_iff.mp done

theorem next_ended (first : (Turn.ended called).next m = some u) :
    u = .ended called ∧ m.isAnswer = false ∧ m.isCall = false ∧ m.isGameover = false ∧
      m.endsTurn = false := by
  cases m with
  | exit pid overInfo => exact ⟨(Option.some.inj first).symm, rfl, rfl, rfl, rfl⟩
  | sync_player_gold pid gold => exact ⟨(Option.some.inj first).symm, rfl, rfl, rfl, rfl⟩
  | add_gold pid num => exact ⟨(Option.some.inj first).symm, rfl, rfl, rfl, rfl⟩
  | _ => cases first

theorem next_asked (first : Turn.asked.next m = some u) :
    m.isAnswer = false ∧ m.isCall = false ∧
      (m.endsTurn = true ∨ m.endsTurn = false ∧ (u = .asked ∨ u = .ended true)) := by
  cases m with
  | please_recharge pid gold => cases first
  | giveup pid giveup => cases first
  | next_one_take => cases first
  | hu pid bills => cases first
  | playcard pid card => exact ⟨rfl, rfl, .inl rfl⟩
  | charge c q goldLost gold gameing => exact ⟨rfl, rfl, .inl rfl⟩
  | gameover datas => exact ⟨rfl, rfl, .inr ⟨rfl, .inr (Option.some.inj first).symm⟩⟩
  | _ => exact ⟨rfl, rfl, .inr ⟨rfl, .inl (Option.some.inj first).symm⟩⟩

theorem next_due (first : Turn.due.next m = some u) :
    m = .next_one_take ∧ u = .asked ∨
      m.isCall = false ∧ m.endsTurn = false ∧ (u = .due ∨ u = .ended false) := by
  cases m with
  | next_one_take => exact .inl ⟨rfl, (Option.some.inj first).symm⟩
  | please_takecard pid => cases first
  | takecard pid from_pool card flowers => cases first
  | please_playcard pid => cases first
  | playcard pid card => cases first
  | charge c q goldLost gold gameing => cases first
  | hu pid bills => cases first
  | gameover datas => exact .inr ⟨rfl, rfl, .inr (Option.some.inj first).symm⟩
  | _ => exact .inr ⟨rfl, rfl, .inl (Option.some.inj first).symm⟩

/-- After the end nothing of the game is said. -/
theorem after_end (done : ms.foldlM Turn.next (.ended called) = some u) :
    u = .ended called ∧ ∀ m ∈ ms, m.isAnswer = false ∧ m.isCall = false ∧
      m.isGameover = false ∧ m.endsTurn = false := by
  induction ms with
  | nil => exact ⟨(Option.some.inj done).symm, fun m mem => absurd mem List.not_mem_nil⟩
  | cons m ms ih =>
      obtain ⟨v, first, rest⟩ := foldlM_cons done
      obtain ⟨rfl, plain⟩ := next_ended first
      obtain ⟨same, others⟩ := ih rest
      exact ⟨same, List.forall_mem_cons.mpr ⟨plain, others⟩⟩

theorem untilNext_cons (m : Message) (ms : List Message) :
    untilNext (m :: ms) = if m.endsTurn = true then [] else m :: untilNext ms := by
  simp only [untilNext, List.takeWhile_cons]
  cases m.endsTurn with
  | false => rfl
  | true => rfl

theorem untilNext_end (done : ms.foldlM Turn.next (.ended called) = some u) :
    untilNext ms = ms := by
  rw [untilNext, List.takeWhile_eq_self_iff]
  intro m mem
  simp [(after_end done).2 m mem]

/-- Once a player is asked, nothing of the win before is said any more. -/
theorem after_asked (done : ms.foldlM Turn.next .asked = some u) :
    ∀ m ∈ untilNext ms, m.isAnswer = false ∧ m.isCall = false := by
  induction ms with
  | nil => exact fun m mem => absurd mem List.not_mem_nil
  | cons m ms ih =>
      obtain ⟨v, first, rest⟩ := foldlM_cons done
      obtain ⟨unanswered, uncalled, ends | ⟨within, asked | ended⟩⟩ := next_asked first
      · rw [untilNext_cons, if_pos ends]
        exact fun m mem => absurd mem List.not_mem_nil
      · subst asked
        rw [untilNext_cons, if_neg (by simp [within])]
        exact List.forall_mem_cons.mpr ⟨⟨unanswered, uncalled⟩, ih rest⟩
      · subst ended
        rw [untilNext_cons, if_neg (by simp [within]), untilNext_end rest]
        refine List.forall_mem_cons.mpr ⟨⟨unanswered, uncalled⟩, fun n mem => ?_⟩
        obtain ⟨quiet, plain, _⟩ := (after_end rest).2 n mem
        exact ⟨quiet, plain⟩

/-- When the turn is due it is passed on once and after the last answer, or not yet. -/
theorem after_due (done : ms.foldlM Turn.next .due = some u) :
    (∃ us vs, untilNext ms = us ++ .next_one_take :: vs ∧ (∀ m ∈ us, m.isCall = false) ∧
      ∀ m ∈ vs, m.isAnswer = false ∧ m.isCall = false) ∨
    (∀ m ∈ untilNext ms, m.isCall = false) ∧ untilNext ms = ms ∧
      (u = .due ∨ u = .ended false) := by
  induction ms with
  | nil =>
      refine .inr ⟨fun m mem => absurd mem List.not_mem_nil, rfl, .inl ?_⟩
      exact (Option.some.inj done).symm
  | cons m ms ih =>
      obtain ⟨v, first, rest⟩ := foldlM_cons done
      obtain ⟨rfl, rfl⟩ | ⟨uncalled, within, due | ended⟩ := next_due first
      · rw [untilNext_cons, if_neg (by simp [Message.endsTurn])]
        refine .inl ⟨[], untilNext ms, rfl, fun m mem => absurd mem List.not_mem_nil, ?_⟩
        exact after_asked rest
      · subst due
        rw [untilNext_cons, if_neg (by simp [within])]
        obtain ⟨us, vs, split, before, after⟩ | ⟨none, whole, state⟩ := ih rest
        · exact .inl ⟨m :: us, vs, by rw [split, List.cons_append],
            List.forall_mem_cons.mpr ⟨uncalled, before⟩, after⟩
        · exact .inr ⟨List.forall_mem_cons.mpr ⟨uncalled, none⟩, by rw [whole], state⟩
      · subst ended
        rw [untilNext_cons, if_neg (by simp [within]), untilNext_end rest]
        refine .inr ⟨List.forall_mem_cons.mpr ⟨uncalled, fun n mem => ?_⟩, rfl,
          .inr (after_end rest).1⟩
        exact ((after_end rest).2 n mem).2.1

/-- The game ends once. -/
theorem gameover_once (done : ms.foldlM Turn.next t = some u) :
    ms.countP Message.isGameover ≤ 1 := by
  induction ms generalizing t with
  | nil => exact Nat.zero_le 1
  | cons m ms ih =>
      obtain ⟨v, first, rest⟩ := foldlM_cons done
      rw [List.countP_cons]
      by_cases ends : m.isGameover = true
      · obtain ⟨called, rfl⟩ : ∃ called, v = .ended called := by
          cases m with
          | gameover datas =>
              cases t with
              | asked => exact ⟨true, (Option.some.inj first).symm⟩
              | due => exact ⟨false, (Option.some.inj first).symm⟩
              | settling => cases first
              | ended called => cases first
          | _ => cases ends
        have none : ms.countP Message.isGameover = 0 :=
          List.countP_eq_zero.mpr fun n mem => by simp [((after_end rest).2 n mem).2.2.1]
        rw [none, if_pos ends]
      · rw [if_neg ends, Nat.add_zero]
        exact ih rest

/-- What comes after a win comes when the turn is due. -/
theorem after_hu {before : List Message} {w : Chair} {bills : List Bill}
    (done : turn (before ++ .hu w bills :: after) = some u) :
    after.foldlM Turn.next .due = some u := by
  rw [turn, List.foldlM_append] at done
  obtain ⟨v, _, rest⟩ := Option.bind_eq_some_iff.mp done
  obtain ⟨x, won, rest⟩ := foldlM_cons rest
  have due : x = .due := by
    cases v with
    | settling => exact (Option.some.inj won).symm
    | asked => cases won
    | due => cases won
    | ended called => cases won
  rwa [due] at rest

end Turns

section Stages
variable {conf : Conf} {users : Chair → User} {b : Room} {s : Scene} {p : Chair} {t : Task}

theorem Scene.Waits.turn (waits : s.Waits t) :
    s.turn = some .asked ∨ s.turn = some .due ∧ ∃ p, t = .next_one_take p := by
  have resumes := waits.resumes
  cases t with
  | realstart => exact .inl resumes
  | please_playcard p => exact .inl resumes
  | next_one_take p => exact .inr ⟨resumes, p, rfl⟩
  | _ => exact absurd resumes id

theorem Stage.turn (stage : Stage s) : ∃ u, s.turn = some u := by
  cases stage with
  | acts p acts => exact ⟨_, acts.turn⟩
  | waits t waits =>
      obtain asked | ⟨due, _⟩ := waits.turn
      · exact ⟨_, asked⟩
      · exact ⟨_, due⟩
  | settles t c main settlement turn settles => exact ⟨_, turn⟩
  | recharges w recharges => exact ⟨_, recharges.turn⟩
  | leaves leaves => exact ⟨_, leaves.turn⟩
  | ends called ends => exact ⟨_, ends.turn⟩

theorem mem_main (main : b.scene.main = [t]) : t ∈ b.tasks := by
  have mem : t ∈ b.scene.main := by simp [main]
  exact (List.mem_filter.mp mem).1

theorem forked_task (forked : p ∈ b.scene.prompts) : .please_recharge p ∈ b.tasks := by
  obtain ⟨t, task, prompted⟩ := List.mem_filterMap.mp forked
  cases t with
  | please_recharge q => exact Option.some.inj prompted ▸ task
  | _ => cases prompted

/-- While the turn is due, a task or an open answer will pass it on, unless all but one
have left. -/
theorem Stage.due (stage : Stage b.scene)
    (turn : b.scene.turn = some .due ∨ b.scene.turn = some (.ended false)) :
    b.Due ∨ b.LeftAlone := by
  cases stage with
  | acts p acts =>
      rw [acts.turn] at turn
      simp at turn
  | waits t waits =>
      obtain asked | ⟨_, p, rfl⟩ := waits.turn
      · rw [asked] at turn
        simp at turn
      · exact .inl (.inl ⟨p, mem_main waits.main⟩)
  | settles t c main settlement settling settles =>
      rw [settling] at turn
      simp at turn
  | recharges w recharges =>
      obtain forked | ⟨p, prompted⟩ := recharges.opened
      · obtain ⟨p, mem⟩ := List.exists_mem_of_ne_nil _ forked
        exact .inl (.inr ⟨p, .inl (forked_task mem)⟩)
      · exact .inl (.inr ⟨p, .inr prompted⟩)
  | leaves leaves => exact .inr ⟨leaves.out, .inl (mem_main leaves.main)⟩
  | ends called ends =>
      have ended : b.status = .ended := of_decide_eq_true ends.ended
      rw [ends.turn] at turn
      simp only [Option.some.injEq, reduceCtorEq, Turn.ended.injEq, false_or] at turn
      exact .inr ⟨ends.out turn, .inr ended⟩

/-- A list with one call splits at it in one way. -/
theorem call_unique {us vs xs ys : List Message} (before : ∀ m ∈ us, m.isCall = false)
    (after : ∀ m ∈ vs, m.isCall = false)
    (same : us ++ .next_one_take :: vs = xs ++ .next_one_take :: ys) : ys = vs := by
  obtain ⟨zs, rfl, rest⟩ | ⟨zs, rfl, rest⟩ := List.append_eq_append_iff.mp same
  · cases zs with
    | nil => exact (List.cons.inj rest).2.symm
    | cons z zs =>
        have call := after .next_one_take (by simp [(List.cons.inj rest).2])
        cases call
  · cases zs with
    | nil => exact (List.cons.inj rest).2
    | cons z zs =>
        have call := before .next_one_take (by simp [(List.cons.inj rest).1])
        cases call

/-- A win is followed by what its turn says. -/
theorem called_stage (stage : Stage b.scene) {before after : List Message} {w : Chair}
    {bills : List Bill} (split : b.record = before ++ .hu w bills :: after) :
    CalledOnce Room.LeftAlone b after := by
  obtain ⟨u, state⟩ := stage.turn
  have done : turn (before ++ .hu w bills :: after) = some u := split ▸ state
  obtain ⟨us, vs, said, first, later⟩ | ⟨none, whole, due⟩ := after_due (after_hu done)
  · have front : us.countP Message.isCall = 0 :=
      List.countP_eq_zero.mpr fun m mem => by simp [first m mem]
    have back : vs.countP Message.isCall = 0 :=
      List.countP_eq_zero.mpr fun m mem => by simp [(later m mem).2]
    have once : (untilNext after).countP Message.isCall = 1 := by
      rw [said, List.countP_append, List.countP_cons, front, back]
      rfl
    refine ⟨once.le, fun xs ys same m mem => ?_, fun zero => ?_⟩
    · rw [said] at same
      exact (later m (call_unique first (fun n mem => (later n mem).2) same ▸ mem)).1
    · rw [once] at zero
      cases zero
  · have zero : (untilNext after).countP Message.isCall = 0 :=
      List.countP_eq_zero.mpr fun m mem => by simp [none m mem]
    refine ⟨zero.le.trans (Nat.zero_le 1), fun xs ys same => ?_, fun _ => ⟨whole, ?_⟩⟩
    · have call := none .next_one_take (by simp [same])
      cases call
    · refine stage.due ?_
      cases due with
      | inl due => exact .inl (due ▸ state)
      | inr ended => exact .inr (ended ▸ state)

theorem actingNum_zero (idle : ∀ q, (b.scene.status q).acting = false) : b.actingNum = 0 := by
  rw [Room.actingNum, List.countP_eq_zero]
  exact fun p _ => Bool.eq_false_iff.mp (idle p)

theorem continuations_scene :
    b.continuations = max b.scene.main.length (min 1 b.scene.prompts.length) := by
  have prompts : ∀ ts : List Task,
      ts.countP (fun t => t.prompted.isSome) = (ts.filterMap Task.prompted).length := by
    intro ts
    induction ts with
    | nil => rfl
    | cons t ts ih =>
        rw [List.countP_cons, ih]
        cases t with
        | _ => rfl
  rw [Room.continuations, List.countP_eq_length_filter, prompts]
  rfl

/-- Somebody is asked, or one continuation is pending. -/
theorem going_stage (stage : Stage b.scene) (two : b.count_watching_or_exited ≤ 2)
    (cards : b.pool ≠ []) (closed : ∀ p, (b.players p).status ≠ .recharging) :
    b.actingNum + b.continuations = 1 := by
  rw [out_count] at two
  rw [continuations_scene]
  cases stage with
  | acts p acts =>
      have one : b.actingNum = 1 := by
        have count : ∀ (f : Chair → Bool) (p : Chair), f p = true → (∀ q, q ≠ p → f q = false) →
            (List.finRange 4).countP f = 1 := by decide
        exact count _ p acts.acting fun q other => still_idle (acts.alone q other)
      rw [one, acts.main, acts.prompts]
      rfl
  | waits t waits =>
      rw [actingNum_zero fun q => still_idle (waits.still q), waits.main, waits.prompts]
      rfl
  | settles t c main settlement turn settles =>
      rw [actingNum_zero settles.won.idle, main, List.length_singleton]
      omega
  | recharges w recharges =>
      obtain forked | ⟨p, prompted⟩ := recharges.opened
      · have some := List.length_pos_iff.mpr forked
        rw [actingNum_zero recharges.won.idle, recharges.main, List.length_nil]
        omega
      · exact absurd prompted (closed p)
  | leaves leaves =>
      have three := leaves.out
      omega
  | ends called ends =>
      cases called with
      | true => exact absurd (of_decide_eq_true (ends.dry rfl)) cards
      | false =>
          have three := ends.out rfl
          omega

theorem Orderly.called {spared : Room → Prop} (orderly : Orderly spared b) {i : Nat} {w : Chair}
    {bills : List Bill} (found : b.record[i]? = some (.hu w bills)) :
    CalledOnce spared b (b.record.drop (i + 1)) := by
  obtain ⟨inside, here⟩ := List.getElem?_eq_some_iff.mp found
  refine orderly.wins (b.record.take i) w bills _ ?_
  rw [← here, ← List.drop_eq_getElem_cons inside, List.take_append_drop]

theorem orderly_stage (stage : Stage b.scene) : Orderly Room.LeftAlone b where
  alone := by
    intro p q first second
    by_contra apart
    have idle : (b.players q).acting = false :=
      still_idle ((stage.acting_only first).alone q (Ne.symm apart))
    rw [idle] at second
    cases second
  recharging := by
    intro p q prompted
    obtain ⟨t, c, _, _, _, settles⟩ | ⟨w, recharges⟩ := stage.prompted prompted
    · exact settles.won.idle q
    · exact recharges.won.idle q
  wins := fun _ _ _ _ split => called_stage stage split
  gameover := by
    obtain ⟨u, done⟩ := stage.turn
    exact gameover_once done
  going := going_stage stage

/-- In a run whose last answers are not hurried every room is orderly. -/
theorem run_orderly {hands : Chair → List Ddz.Card} {cards : List Ddz.Card} {first_one : Chair}
    {es : List Event} (seven : ∀ p, ((hands p).filter fun card => !is_flower card).length = 7)
    (run : Run (Room.step conf) Unhurried (.gamestart users hands cards first_one) es b) :
    Orderly Room.LeftAlone b := orderly_stage (run_stage seven run)

/-- Seven cards each; the first player has seven aces, and the eighth is on top of the
pool. -/
def sevenEach : Chair → List Ddz.Card := fun p =>
  if p = 0 then [0x11, 0x21, 0x31, 0x41, 0x61, 0x71, 0x81]
  else [0x12, 0x13, 0x14, 0x15, 0x16, 0x17, 0x18]

/-- Robots at a table where those of a list have little. -/
def poor (ps : List Chair) : Chair → User := fun p => ⟨if p ∈ ps then 50 else 1000, 50, true⟩

def sevenStart (ps : List Chair) : Room := .gamestart (poor ps) sevenEach [0x22, 0x91, 0x23] 0

/-- The first player takes his eighth ace and wins. -/
def winEvents : List Event := [.resume 0, .ssw_takecard 0 true none, .resume 0, .ssw_hu 0]

/-- The one player who is left with nothing is prompted, and stays. -/
theorem run_orderly_recharged :
    ∃ b, Run (Room.step eightConf) Unhurried (sevenStart [0, 1])
        (winEvents ++ [.resume 0, .ssw_not_giveup 1]) b ∧
      b.record.countP Message.isCall = 1 ∧ (b.players 1).status = .takeing ∧
      Orderly Room.LeftAlone b := by
  obtain ⟨b, run, called, taking⟩ := run_of_guarded_any (Room.step eightConf) Unhurried
    (sevenStart [0, 1]) (winEvents ++ [.resume 0, .ssw_not_giveup 1])
    (fun b => b.record.countP Message.isCall = 1 ∧ (b.players 1).status = .takeing) (by decide)
  exact ⟨b, run, called, taking, run_orderly (by decide) run⟩

/-- When all the others give up the turn is never passed on. And where two are left with
nothing and the first answers before the second is prompted, the first is asked to take,
and is still asked when the second is prompted. -/
theorem orderly_fails :
    (¬ ∀ (conf : Conf) (users : Chair → User) (hands : Chair → List Ddz.Card)
      (cards : List Ddz.Card) (first_one : Chair) (es : List Event) (b : Room),
      (∀ p, ((hands p).filter fun card => !is_flower card).length = 7) →
      Run (Room.step conf) Unhurried (.gamestart users hands cards first_one) es b →
      Orderly (fun _ => False) b) ∧
    ¬ ∀ (conf : Conf) (users : Chair → User) (hands : Chair → List Ddz.Card)
      (cards : List Ddz.Card) (first_one : Chair) (es : List Event) (b : Room),
      (∀ p, ((hands p).filter fun card => !is_flower card).length = 7) →
      Run (Room.step conf) anyStep (.gamestart users hands cards first_one) es b →
      Orderly Room.LeftAlone b := by
  constructor
  · intro all
    obtain ⟨b, run, stuck⟩ := run_of_guarded_any (Room.step eightConf) Unhurried
      (sevenStart [0, 1, 2, 3]) (winEvents ++ [.resume 0, .resume 0, .resume 0,
        .ssw_giveup 1, .ssw_giveup 2, .ssw_giveup 3])
      (fun b => b.record[10]?.any Message.isWin = true ∧
        (untilNext (b.record.drop 11)).countP Message.isCall = 0 ∧ ¬b.Due) (by decide)
    obtain ⟨won, zero, past⟩ := stuck
    obtain ⟨m, found, win⟩ := (Option.any_eq_true _ _).mp won
    obtain ⟨w, bills, rfl⟩ := win_cases win
    have called := (all _ _ _ _ _ _ _ (by decide) run).called found
    exact (called.called zero).2.elim past id
  · intro all
    obtain ⟨b, run, prompted, acting⟩ := run_of_exec_any (Room.step eightConf)
      (sevenStart [0, 1, 2]) (winEvents ++ [.resume 0, .ssw_not_giveup 1, .resume 0])
      (fun b => (b.players 2).status = .recharging ∧ (b.players 1).acting = true) (by decide)
    have idle := (all _ _ _ _ _ _ _ (by decide) run).recharging 2 1 prompted
    rw [acting] at idle
    cases idle

end Stages

end HuluLandlord.SevenSparrow
