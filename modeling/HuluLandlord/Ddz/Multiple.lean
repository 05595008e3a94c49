import HuluLandlord.Ddz.Record
import Mathlib.Algebra.BigOperators.Group.List.Basic

/-!
The multiples against the factors announced for them. The table holds, for each of
its keys, the product of what has been announced since the last deal; the entry
`init` stays 1, so the room's own ratio reaches no player's multiple.
-/
namespace HuluLandlord.Ddz
open Transition

/-- The factors announced for `key`. -/
def factors (key : MultipleKey) (messages : List Message) : List Nat :=
  messages.filterMap fun
    | .roomSyncMultiple k val _ _ => if k = key then some val else none
    | _ => none

/-- The keys the claim multiplies over. -/
def announcedKeys : List MultipleKey :=
  [.showCard, .callLandlord, .robLandlord, .bottomCard, .bomb, .spring, .springReverse, .skill]

def tableOf (messages : List Message) : MultipleKey → Option Nat
  | .init => some 1
  | .double | .doubleSuper | .doubleMax => none
  | key => some (factors key messages).prod

/-- The keys that a deal does not reset. -/
def isLate : MultipleKey → Bool
  | .bottomCard | .bomb | .spring | .springReverse | .skill => true
  | _ => false

def Message.isFactor : Message → Bool
  | .roomSyncMultiple .. => true
  | _ => false

theorem factors_cons_other {m : Message} (other : m.isFactor = false) (key : MultipleKey)
    (messages : List Message) : factors key (m :: messages) = factors key messages := by
  cases m with
  | roomSyncMultiple k val p f => cases other
  | _ => rfl

theorem tableOf_cons_other {m : Message} (other : m.isFactor = false) (messages : List Message) :
    tableOf (m :: messages) = tableOf messages := by
  funext key
  cases key with
  | init | double | doubleSuper | doubleMax => rfl
  | _ => exact congrArg (fun fs : List Nat => some fs.prod) (factors_cons_other other _ messages)

theorem factors_cons_self (key : MultipleKey) (val : Nat) (p : Seat) (f : Seat → Nat)
    (messages : List Message) :
    factors key (.roomSyncMultiple key val p f :: messages) = val :: factors key messages := by
  simp [factors]

theorem prod_factors_self (key : MultipleKey) (val : Nat) (p : Seat) (f : Seat → Nat)
    (messages : List Message) :
    (factors key (.roomSyncMultiple key val p f :: messages)).prod =
      (factors key messages).prod * val := by
  rw [factors_cons_self, List.prod_cons, mul_comm]

theorem factors_cons_ne {key k : MultipleKey} (ne : k ≠ key) (val : Nat) (p : Seat)
    (f : Seat → Nat) (messages : List Message) :
    factors key (.roomSyncMultiple k val p f :: messages) = factors key messages := by
  simp [factors, ne]

theorem tableOf_cons_ne {key k : MultipleKey} (ne : k ≠ key) (val : Nat) (p : Seat)
    (f : Seat → Nat) (messages : List Message) :
    tableOf (.roomSyncMultiple k val p f :: messages) key = tableOf messages key := by
  cases key with
  | init | double | doubleSuper | doubleMax => rfl
  | _ => exact congrArg (fun fs : List Nat => some fs.prod) (factors_cons_ne ne val p f messages)

theorem tableOf_cons_factor (key : MultipleKey) (val : Nat) (p : Seat) (f : Seat → Nat)
    (messages : List Message) (inTable : key ≠ .init) :
    tableOf (.roomSyncMultiple key val p f :: messages) =
      Room.multiplied (tableOf messages) key val := by
  have entry : ∀ k : MultipleKey, k ≠ key → tableOf (.roomSyncMultiple key val p f :: messages) k =
      tableOf messages k := fun k ne => tableOf_cons_ne ne.symm val p f messages
  have other : ∀ v, v = tableOf (.roomSyncMultiple key val p f :: messages) key →
      tableOf (.roomSyncMultiple key val p f :: messages) =
        Function.update (tableOf messages) key v := by
    intro v own
    funext k
    by_cases same : k = key
    · rw [same, Function.update_self, own]
    · rw [Function.update_of_ne same, entry k same]
  have absent : ∀ k : MultipleKey, tableOf messages k = none →
      Room.multiplied (tableOf messages) k val = tableOf messages := by
    intro k none'
    simp only [Room.multiplied, none']
  have present : ∀ k m, tableOf messages k = some m →
      Room.multiplied (tableOf messages) k val =
        Function.update (tableOf messages) k (some (m * val)) := by
    intro k m some'
    simp only [Room.multiplied, some']
  cases key with
  | init => exact absurd rfl inTable
  | double | doubleSuper | doubleMax =>
      rw [absent _ rfl, other none rfl]
      exact Function.update_eq_self _ (tableOf messages)
  | _ =>
      rw [present _ _ rfl]
      exact other _ (congrArg some (prod_factors_self _ val p f messages).symm)

/-- The table is what has been announced. -/
def TableOk (c : Room) : Prop := c.multiple = tableOf (sinceDeal c.sent)

/-- Nothing that a deal leaves standing has been announced since the last deal. -/
def LateFree (c : Room) : Prop :=
  ∀ key : MultipleKey, isLate key = true → factors key (sinceDeal c.sent) = []

section Steps
variable {c : Room} {p : Seat}

theorem tableOk_send {m : Message} (plain : m.isFactor = false) (other : m.isDeal = false)
    (ok : TableOk c) : TableOk (c.send m) := by
  show c.multiple = tableOf (sinceDeal (m :: c.sent))
  rw [sinceDeal_cons other, tableOf_cons_other plain]
  exact ok

theorem lateFree_send {m : Message} (plain : m.isFactor = false) (other : m.isDeal = false)
    (free : LateFree c) : LateFree (c.send m) := by
  intro key late
  show factors key (sinceDeal (m :: c.sent)) = []
  rw [sinceDeal_cons other, factors_cons_other plain]
  exact free key late

theorem tableOk_addMultiple (key : MultipleKey) (val : Nat) (inTable : key ≠ .init)
    (ok : TableOk c) : TableOk (c.addMultiple key val p) := by
  show Room.multiplied c.multiple key val = tableOf (sinceDeal (.roomSyncMultiple key val p _ ::
    c.sent))
  rw [sinceDeal_cons rfl, tableOf_cons_factor key val p _ _ inTable]
  exact congrArg (fun table => Room.multiplied table key val) ok

theorem lateFree_addMultiple (key : MultipleKey) (val : Nat) (early : isLate key = false)
    (free : LateFree c) : LateFree (c.addMultiple key val p) := by
  intro k late
  have ne : key ≠ k := fun same => Bool.noConfusion ((same ▸ early).symm.trans late)
  show factors k (sinceDeal (.roomSyncMultiple key val p _ :: c.sent)) = []
  rw [sinceDeal_cons rfl, factors_cons_ne ne]
  exact free k late

theorem tableOk_announce (key : Option MultipleKey) (val : Nat) (inTable : key ≠ some .init)
    (ok : TableOk c) : TableOk (c.announce key val p) := by
  cases key with
  | none => exact ok
  | some key => exact tableOk_addMultiple key val (fun init => inTable (congrArg some init)) ok

theorem tableOk_allWaiting (ok : TableOk c) : TableOk c.allWaiting := ok

theorem tableOk_prompt (state : PlayerState) (time : Int) (ok : TableOk c) :
    TableOk (c.prompt p state time) := tableOk_send rfl rfl ok

theorem tableOk_promptAll (state : PlayerState) (time : Int) (ok : TableOk c) :
    TableOk (c.promptAll state time) :=
  tableOk_prompt state time (tableOk_prompt state time (tableOk_prompt state time ok))

/-- A deal starts the record anew; its resets and the untouched entries agree with that. -/
theorem tableOk_deal (conf : Conf) (d : Draws) (ok : TableOk c) (free : LateFree c) :
    TableOk (c.coreAction conf .dealCard none d) ∧ LateFree (c.coreAction conf .dealCard none d) := by
  have late : ∀ key : MultipleKey, isLate key = true → c.multiple key = tableOf [] key := by
    intro key is
    rw [ok]
    have none' := free key is
    cases key with
    | init | showCard | callLandlord | robLandlord | double | doubleSuper | doubleMax =>
        cases is
    | _ => exact congrArg (fun fs : List Nat => some fs.prod) none'
  constructor
  · show Function.update (Function.update (Function.update c.multiple .showCard (some 1))
      .callLandlord (some 1)) .robLandlord (some 1) = tableOf []
    funext key
    cases key with
    | showCard | callLandlord | robLandlord => rfl
    | init => exact congrFun ok .init
    | double => exact congrFun ok .double
    | doubleSuper => exact congrFun ok .doubleSuper
    | doubleMax => exact congrFun ok .doubleMax
    | bottomCard => exact late .bottomCard rfl
    | bomb => exact late .bomb rfl
    | spring => exact late .spring rfl
    | springReverse => exact late .springReverse rfl
    | skill => exact late .skill rfl
  · intro key _
    rfl

theorem tableOk_landlordSet (conf : Conf) (ok : TableOk c) : TableOk (c.landlordSet conf p) :=
  tableOk_send rfl rfl (tableOk_addMultiple .bottomCard _ (by decide) ok)

theorem tableOk_setLandlord (conf : Conf) (delayed : Bool) (ok : TableOk c) :
    TableOk (c.setLandlord conf p delayed) := by
  cases delayed with
  | true => exact ok
  | false => exact tableOk_landlordSet conf ok

theorem tableOk_coreAfterBid (conf : Conf) (bid : Bid) (d : Draws) (ok : TableOk c)
    (free : LateFree c) : TableOk (c.coreAfterBid conf bid d) := by
  cases bid with
  | call q => exact tableOk_prompt (c := c.enter .callLandlord (some q)) _ _ ok
  | rob q => exact tableOk_prompt (c := c.enter .robLandlord (some q)) _ _ ok
  | landlord q => exact tableOk_setLandlord conf false ok
  | redeal => exact (tableOk_deal conf d ok free).1

theorem lateFree_coreAfterBid (conf : Conf) (bid : Bid) (d : Draws) (ok : TableOk c)
    (free : LateFree c) (rob : Bool)
    (unset : (bid.phase rob).control.landlordPlayer = none) :
    LateFree (c.coreAfterBid conf bid d) := by
  cases bid with
  | call q => exact lateFree_send (c := c.enter .callLandlord (some q)) rfl rfl free
  | rob q => exact lateFree_send (c := c.enter .robLandlord (some q)) rfl rfl free
  | landlord q => cases unset
  | redeal => exact (tableOk_deal conf d ok free).2

theorem tableOk_bidden (conf : Conf) (rob yes : Bool) (ok : TableOk c) :
    TableOk (c.bidden conf rob yes p) := by
  have sent : TableOk ((c.modify p fun pl => pl.answered (bidAction rob yes)).send
      (.roomSyncPlayerAction p (bidAction rob yes) none)) := tableOk_send rfl rfl ok
  exact tableOk_announce (bidKey rob yes) _ (by cases rob <;> cases yes <;> decide) sent

theorem lateFree_bidden (conf : Conf) (rob yes : Bool) (free : LateFree c) :
    LateFree (c.bidden conf rob yes p) := by
  have sent : LateFree ((c.modify p fun pl => pl.answered (bidAction rob yes)).send
      (.roomSyncPlayerAction p (bidAction rob yes) none)) := lateFree_send rfl rfl free
  cases yes with
  | false => cases rob <;> exact sent
  | true =>
      cases rob with
      | false => exact lateFree_addMultiple .callLandlord _ rfl sent
      | true => exact lateFree_addMultiple .robLandlord _ rfl sent

theorem doubleInfo_key {conf : Conf} {t : Option PlayerAction} {type : PlayerAction}
    {multiple : Nat} {key : Option MultipleKey}
    (info : Room.doubleInfo conf t = some (type, multiple, key)) : key ≠ some .init := by
  simp only [Room.doubleInfo] at info
  split at info
  all_goals simp only [Option.some.injEq, Prod.mk.injEq, reduceCtorEq] at info
  all_goals rw [← info.2.2]
  all_goals decide

theorem doubleMaxInfo_key {conf : Conf} {t : Option PlayerAction} {type : PlayerAction}
    {multiple : Nat} {key : Option MultipleKey}
    (info : Room.doubleMaxInfo conf t = some (type, multiple, key)) : key ≠ some .init := by
  simp only [Room.doubleMaxInfo] at info
  split at info
  all_goals simp only [Option.some.injEq, Prod.mk.injEq, reduceCtorEq] at info
  all_goals rw [← info.2.2]
  all_goals decide

theorem tableOk_coreAnswer (conf : Conf) (d : Draws) (type : PlayerAction)
    (key : Option MultipleKey) (val : Nat) (inTable : key ≠ some .init)
    (late : c.state = .doubleing ∨ c.state = .doubleMax) (ok : TableOk c) :
    TableOk (c.coreAnswer conf p type key val d) := by
  have announced := tableOk_announce (c := c.send (.roomSyncPlayerAction p type none)) (p := p)
    key val inTable (tableOk_send rfl rfl ok)
  have state := congrArg Control.state
    (control_announce (c := c.send (.roomSyncPlayerAction p type none)) (p := p) key val)
  simp only [Room.coreAnswer]
  generalize (c.send (.roomSyncPlayerAction p type none)).announce key val p = m
    at announced state ⊢
  cases late with
  | inl doubleing =>
      rw [coreActionEnd_doubleing conf d type (state.trans doubleing)]
      split <;> exact announced
  | inr doubleMax =>
      rw [coreActionEnd_doubleMax conf d type (state.trans doubleMax)]
      split <;> exact announced

theorem tableOk_playing (conf : Conf) (d : Draws) (type : PlayerAction)
    (state : c.state = .playing) (ok : TableOk c) :
    TableOk (c.coreActionEnd conf p type d) := by
  rw [coreActionEnd_playing conf d type state]
  split <;> exact ok

theorem tableOk_pass (conf : Conf) (d : Draws) (state : c.state = .playing) (ok : TableOk c) :
    TableOk (c.corePlay conf p none d) :=
  tableOk_playing (c := (c.played p none).send (.roomSyncPlayerAction p .pass none)) conf d .pass
    state (tableOk_send (c := c.played p none) rfl rfl ok)

theorem tableOk_recorded (play : PlayCardObj) (ok : TableOk c) : TableOk (c.recorded p play) :=
  tableOk_send (c := c.played p (some play)) rfl rfl ok

theorem tableOk_bombMultiple (conf : Conf) (play : PlayCardObj) {m : Room}
    (found : c.bombMultiple conf p play = .ok m) (ok : TableOk c) : TableOk m := by
  simp only [Room.bombMultiple] at found
  split at found
  · split at found
    · rw [← Except.ok.inj found]
      exact tableOk_addMultiple .bomb _ (by decide) ok
    · cases found
  · rw [← Except.ok.inj found]
    exact ok

theorem tableOk_gameover (conf : Conf) (ok : TableOk c) : TableOk (c.gameover conf p) :=
  tableOk_send rfl rfl ok

theorem tableOk_actionEnded (conf : Conf) (ok : TableOk c) : TableOk (c.actionEnded conf p) := by
  simp only [Room.actionEnded]
  split
  · split
    · exact tableOk_gameover conf (tableOk_addMultiple .spring _ (by decide) ok)
    · exact tableOk_gameover conf ok
  · split
    · exact ok
    · split
      · exact tableOk_gameover conf (tableOk_addMultiple .springReverse _ (by decide) ok)
      · exact tableOk_gameover conf ok

end Steps

/-- The table agrees with the record, and until a landlord is set a deal may reset it. -/
def MultipleInv (ph : Phase) (c : Room) : Prop :=
  TableOk c ∧ (ph.control.landlordPlayer = none → LateFree c)

theorem multipleInv_start (conf : Conf) (gold : Seat → Int) (d : Draws) :
    MultipleInv .dealt ((Room.ready gold).coreAction conf .dealCard none d) := by
  have table : TableOk (Room.ready gold) := by
    show startMultiple = tableOf []
    funext key
    cases key <;> rfl
  have free : LateFree (Room.ready gold) := fun _ _ => rfl
  exact ⟨(tableOk_deal conf d table free).1, fun _ => (tableOk_deal conf d table free).2⟩

theorem multipleInv_trans {conf : Conf} {e : Event} {d : Draws} {c c' : Room} {ph ph' : Phase}
    (phase : c.control = ph.control) (inv : MultipleInv ph c)
    (trans : Trans conf e d c ph ph' c') : MultipleInv ph' c' := by
  have state : c.state = ph.control.state := congrArg Control.state phase
  cases trans with
  | gold p num => exact inv
  | showCard p early =>
      exact ⟨tableOk_addMultiple .showCard _ (by decide) inv.1,
        fun unset => lateFree_addMultiple .showCard _ rfl (inv.2 unset)⟩
  | first =>
      have table : TableOk (Room.enter (Room.allWaiting { c with waits := c.waits.erase .dealCard })
        .callLandlord (some d.first)) := inv.1
      have free : LateFree (Room.enter (Room.allWaiting { c with waits := c.waits.erase .dealCard })
        .callLandlord (some d.first)) := inv.2 rfl
      exact ⟨tableOk_prompt _ _ table, fun _ => lateFree_send rfl rfl free⟩
  | bid rob yes p =>
      have table := tableOk_bidden (p := p) conf rob yes inv.1
      have free := lateFree_bidden (p := p) conf rob yes (inv.2 rfl)
      exact ⟨tableOk_coreAfterBid conf _ d table free,
        fun unset => lateFree_coreAfterBid conf _ d table free rob unset⟩
  | force rob q p buff cfg skill =>
      have sent : TableOk (c.send (.roomSyncPlayerSkill p buff.skill_id)) :=
        tableOk_send rfl rfl inv.1
      exact ⟨tableOk_setLandlord conf true (tableOk_addMultiple .skill _ (by decide)
        (tableOk_allWaiting sent)), fun unset => nomatch unset⟩
  | delayed rob l =>
      exact ⟨tableOk_landlordSet (c := { c with holding := none }) conf inv.1,
        fun unset => nomatch unset⟩
  | set rob l =>
      exact ⟨tableOk_promptAll (c := Room.enter { c with holding := none } .doubleing (some l)) _ _
        inv.1, fun unset => nomatch unset⟩
  | double l p answered t type multiple key open' info =>
      exact ⟨tableOk_coreAnswer (c := c.modify p _) conf d type key multiple (doubleInfo_key info)
        (.inl state) inv.1, fun unset => nomatch unset⟩
  | doubled l =>
      exact ⟨tableOk_promptAll (c := Room.enter { c with waits := _ } .doubleMax none) _ _ inv.1,
        fun unset => nomatch unset⟩
  | doubleMax l p answered t type multiple key open' info =>
      exact ⟨tableOk_coreAnswer (c := c.modify p _) conf d type key multiple
        (doubleMaxInfo_key info) (.inr state) inv.1, fun unset => nomatch unset⟩
  | doubledMax l =>
      exact ⟨tableOk_prompt (c := Room.setPlayCardState _ _ _) _ _ inv.1,
        fun unset => nomatch unset⟩
  | pass l p plays cards => exact ⟨tableOk_pass conf d state inv.1, fun unset => nomatch unset⟩
  | passOut l p plays cards => exact ⟨tableOk_pass conf d state inv.1, fun unset => nomatch unset⟩
  | play l p play m plays mirror bomb =>
      have table : TableOk m := tableOk_bombMultiple conf play bomb (tableOk_recorded play inv.1)
      exact ⟨table, fun unset => nomatch unset⟩
  | mirrorRaised l p play plays mirror => exact ⟨inv.1, fun unset => nomatch unset⟩
  | bombRaised l p play message plays mirror bomb =>
      exact ⟨tableOk_recorded play inv.1, fun unset => nomatch unset⟩
  | turn l p cards =>
      exact ⟨tableOk_playing (c := { c with holding := none }) conf d .playCard state inv.1,
        fun unset => nomatch unset⟩
  | out l p cards =>
      exact ⟨tableOk_playing (c := { c with holding := none }) conf d .playCard state inv.1,
        fun unset => nomatch unset⟩
  | next l last found =>
      refine ⟨?_, fun unset => nomatch unset⟩
      rw [coreResume_next conf d found]
      exact tableOk_prompt (c := Room.setPlayCardState _ _ _) _ _ inv.1
  | lost l found =>
      refine ⟨?_, fun unset => nomatch unset⟩
      rw [coreResume_lost conf d found]
      exact inv.1
  | ended l w =>
      exact ⟨tableOk_actionEnded (c := Room.enter { c with waits := _ } .ended (some w)) conf inv.1,
        fun unset => nomatch unset⟩

/-- No factor is zero. -/
structure Positive (c : Room) : Prop where
  table : ∀ key m, c.multiple key = some m → 0 < m
  doubled : ∀ p, 0 < (c.players p).doubled

section Positive
variable {c : Room} {p : Seat}

theorem positive_modify (f : Player → Player) (kept : 0 < (f (c.players p)).doubled)
    (pos : Positive c) : Positive (c.modify p f) := by
  refine ⟨pos.table, fun q => ?_⟩
  by_cases here : q = p
  · subst here
    simp only [Room.modify, Function.update_self]
    exact kept
  · simp only [Room.modify, Function.update_of_ne here]
    exact pos.doubled q

theorem positive_send (m : Message) (pos : Positive c) : Positive (c.send m) :=
  ⟨pos.table, pos.doubled⟩

theorem positive_addMultiple (key : MultipleKey) {val : Nat} (val_pos : 0 < val)
    (pos : Positive c) : Positive (c.addMultiple key val p) := by
  refine ⟨?_, pos.doubled⟩
  intro k m entry
  have entry : Room.multiplied c.multiple key val k = some m := entry
  cases found : c.multiple key with
  | none =>
      simp only [Room.multiplied, found] at entry
      exact pos.table k m entry
  | some old =>
      simp only [Room.multiplied, found] at entry
      by_cases here : k = key
      · subst here
        rw [Function.update_self, Option.some.injEq] at entry
        exact entry ▸ Nat.mul_pos (pos.table k old found) val_pos
      · rw [Function.update_of_ne here] at entry
        exact pos.table k m entry

theorem positive_announce (key : Option MultipleKey) {val : Nat} (val_pos : 0 < val)
    (pos : Positive c) : Positive (c.announce key val p) := by
  cases key with
  | none => exact pos
  | some key => exact positive_addMultiple key val_pos pos

theorem positive_prompt (state : PlayerState) (time : Int) (pos : Positive c) :
    Positive (c.prompt p state time) :=
  positive_modify _ (pos.doubled p) (positive_send _ pos)

theorem positive_promptAll (state : PlayerState) (time : Int) (pos : Positive c) :
    Positive (c.promptAll state time) :=
  positive_prompt state time (positive_prompt state time (positive_prompt state time pos))

theorem positive_inState (state : PlayerState) (pos : Positive c) :
    Positive (c.modify p fun pl => pl.inState state) :=
  positive_modify _ (pos.doubled p) pos

theorem positive_allWaiting (pos : Positive c) : Positive c.allWaiting :=
  positive_inState _ (positive_inState _ (positive_inState _ pos))

theorem positive_dealHand (pos : Positive c) : Positive (c.dealHand p) :=
  positive_modify _ (pos.doubled p) (positive_send _ pos)

theorem positive_deal (conf : Conf) (d : Draws) (pos : Positive c) :
    Positive (c.coreAction conf .dealCard none d) := by
  have dealt : Positive ((c.enter .dealCard none).dealCard d) := by
    refine ⟨?_, pos.doubled⟩
    intro key m entry
    have entry : Function.update (Function.update (Function.update c.multiple .showCard (some 1))
      .callLandlord (some 1)) .robLandlord (some 1) key = some m := entry
    simp only [Function.update_apply] at entry
    split at entry
    · exact Option.some.inj entry ▸ Nat.one_pos
    split at entry
    · exact Option.some.inj entry ▸ Nat.one_pos
    split at entry
    · exact Option.some.inj entry ▸ Nat.one_pos
    · exact pos.table key m entry
  have hands := positive_dealHand (p := 2) (positive_dealHand (p := 1)
    (positive_dealHand (p := 0) dealt))
  exact ⟨hands.table, hands.doubled⟩

theorem positive_landlordSet (conf : Conf) (pos : Positive c) :
    Positive (c.landlordSet conf p) := by
  have set := positive_send (.roomLandlordSet p c.bottomCards
    (getBottomCardMultiple conf c.bottomCards)) (positive_addMultiple (p := p) .bottomCard
      (conf.multiple_pos (bottomCardKey c.bottomCards)) pos)
  exact ⟨set.table, set.doubled⟩

theorem positive_setLandlord (conf : Conf) (delayed : Bool) (pos : Positive c) :
    Positive (c.setLandlord conf p delayed) := by
  have made : Positive ({ c with landlordPlayer := some p }.modify p fun pl => { pl with
      isLandlord := true
      cards := sortCards (pl.cards ++ c.bottomCards)
      robotAgent := pl.robotAgent.setLandlord c.bottomCards }) :=
    positive_modify (c := { c with landlordPlayer := some p }) _ (pos.doubled p)
      ⟨pos.table, pos.doubled⟩
  cases delayed with
  | true => exact ⟨made.table, made.doubled⟩
  | false => exact positive_landlordSet conf made

theorem positive_coreAfterBid (conf : Conf) (bid : Bid) (d : Draws) (pos : Positive c) :
    Positive (c.coreAfterBid conf bid d) := by
  cases bid with
  | call q =>
      exact positive_prompt (c := c.enter .callLandlord (some q)) _ _ ⟨pos.table, pos.doubled⟩
  | rob q =>
      exact positive_prompt (c := c.enter .robLandlord (some q)) _ _ ⟨pos.table, pos.doubled⟩
  | landlord q => exact positive_setLandlord conf false pos
  | redeal => exact positive_deal conf d pos

theorem doubleInfo_pos {conf : Conf} {t : Option PlayerAction} {type : PlayerAction}
    {multiple : Nat} {key : Option MultipleKey}
    (info : Room.doubleInfo conf t = some (type, multiple, key)) : 0 < multiple := by
  simp only [Room.doubleInfo] at info
  split at info
  all_goals simp only [Option.some.injEq, Prod.mk.injEq, reduceCtorEq] at info
  all_goals rw [← info.2.1]
  · exact Nat.one_pos
  · exact conf.multiple_pos _
  · exact conf.multiple_pos _

theorem doubleMaxInfo_pos {conf : Conf} {t : Option PlayerAction} {type : PlayerAction}
    {multiple : Nat} {key : Option MultipleKey}
    (info : Room.doubleMaxInfo conf t = some (type, multiple, key)) : 0 < multiple := by
  simp only [Room.doubleMaxInfo] at info
  split at info
  all_goals simp only [Option.some.injEq, Prod.mk.injEq, reduceCtorEq] at info
  all_goals rw [← info.2.1]
  · exact Nat.one_pos
  · exact conf.multiple_pos _

theorem positive_coreAnswer (conf : Conf) (d : Draws) (type : PlayerAction)
    (key : Option MultipleKey) {val : Nat} (val_pos : 0 < val)
    (late : c.state = .doubleing ∨ c.state = .doubleMax) (pos : Positive c) :
    Positive (c.coreAnswer conf p type key val d) := by
  have announced := positive_announce (c := c.send (.roomSyncPlayerAction p type none)) (p := p)
    key val_pos (positive_send _ pos)
  have state := congrArg Control.state
    (control_announce (c := c.send (.roomSyncPlayerAction p type none)) (p := p) key val)
  simp only [Room.coreAnswer]
  generalize (c.send (.roomSyncPlayerAction p type none)).announce key val p = m
    at announced state ⊢
  cases late with
  | inl doubleing =>
      rw [coreActionEnd_doubleing conf d type (state.trans doubleing)]
      split <;> exact ⟨announced.table, announced.doubled⟩
  | inr doubleMax =>
      rw [coreActionEnd_doubleMax conf d type (state.trans doubleMax)]
      split <;> exact ⟨announced.table, announced.doubled⟩

theorem positive_played (play : Option PlayCardObj) (pos : Positive c) :
    Positive (c.played p play) :=
  positive_modify _ (pos.doubled p) pos

theorem positive_recorded (play : PlayCardObj) (pos : Positive c) :
    Positive (c.recorded p play) := by
  have sent := positive_send (.roomSyncPlayerAction p .playCard (some play))
    (positive_played (p := p) (some play) pos)
  have edited := positive_modify (p := p) (fun pl => { pl with
    playedCards := pl.playedCards ++ [play]
    playCount := pl.playCount + 1
    playCardCount := pl.playCardCount + 1
    cards := removePlayed pl.cards play.cards }) (sent.doubled p) sent
  exact ⟨edited.table, edited.doubled⟩

theorem positive_playing (conf : Conf) (d : Draws) (type : PlayerAction)
    (state : c.state = .playing) (pos : Positive c) :
    Positive (c.coreActionEnd conf p type d) := by
  rw [coreActionEnd_playing conf d type state]
  split <;> exact ⟨pos.table, pos.doubled⟩

theorem positive_pass (conf : Conf) (d : Draws) (state : c.state = .playing) (pos : Positive c) :
    Positive (c.corePlay conf p none d) :=
  positive_playing (c := (c.played p none).send (.roomSyncPlayerAction p .pass none)) conf d .pass
    state (positive_send _ (positive_played none pos))

theorem positive_bombMultiple (conf : Conf) (play : PlayCardObj) {m : Room}
    (found : c.bombMultiple conf p play = .ok m) (pos : Positive c) : Positive m := by
  simp only [Room.bombMultiple] at found
  split at found
  · split at found
    · rename_i val row
      obtain ⟨b, _, row⟩ := Option.bind_eq_some_iff.mp row
      rw [← Except.ok.inj found]
      exact positive_addMultiple .bomb (conf.bomb_pos b val row) pos
    · cases found
  · rw [← Except.ok.inj found]
    exact pos

theorem positive_actionEnded (conf : Conf) (pos : Positive c) :
    Positive (c.actionEnded conf p) := by
  simp only [Room.actionEnded]
  split
  · split
    · exact positive_send _ (positive_addMultiple .spring (conf.multiple_pos _) pos)
    · exact positive_send _ pos
  · split
    · exact pos
    · split
      · exact positive_send _ (positive_addMultiple .springReverse (conf.multiple_pos _) pos)
      · exact positive_send _ pos

theorem positive_turn (conf : Conf) (d : Draws) (pos : Positive c) :
    Positive (c.coreAction conf .playing (some p) d) :=
  positive_prompt .playing 20
    (positive_modify (c := c.enter .playing (some p)) (fun pl => { pl with
      playCardState := _ }) (pos.doubled p) ⟨pos.table, pos.doubled⟩)

theorem positive_start (conf : Conf) (gold : Seat → Int) (d : Draws) :
    Positive ((Room.ready gold).coreAction conf .dealCard none d) := by
  refine positive_deal conf d ⟨?_, fun _ => Nat.one_pos⟩
  intro key m entry
  have entry : startMultiple key = some m := entry
  cases key with
  | double | doubleSuper | doubleMax => cases entry
  | _ => exact Option.some.inj entry ▸ Nat.one_pos

theorem positive_trans {conf : Conf} {e : Event} {d : Draws} {c' : Room} {ph ph' : Phase}
    (phase : c.control = ph.control) (pos : Positive c) (trans : Trans conf e d c ph ph' c') :
    Positive c' := by
  have state : c.state = ph.control.state := congrArg Control.state phase
  have free : Positive { c with holding := none } := ⟨pos.table, pos.doubled⟩
  have fired : ∀ ws, Positive { c with waits := ws } := fun ws => ⟨pos.table, pos.doubled⟩
  cases trans with
  | gold ph p num => exact positive_modify _ (pos.doubled p) pos
  | showCard ph p early => exact positive_addMultiple .showCard (conf.multiple_pos _) pos
  | first =>
      have waiting := positive_allWaiting (fired (c.waits.erase .dealCard))
      exact positive_prompt _ _ ⟨waiting.table, waiting.doubled⟩
  | bid rob yes p =>
      have bidden : Positive (c.bidden conf rob yes p) := by
        have answered : Positive (c.modify p fun pl => pl.answered (bidAction rob yes)) :=
          positive_modify _ (pos.doubled p) pos
        have val_pos : 0 < bidVal conf rob := by cases rob <;> exact conf.multiple_pos _
        have announced := positive_announce (p := p) (bidKey rob yes) val_pos (positive_send
          (.roomSyncPlayerAction p (bidAction rob yes) none) answered)
        exact ⟨announced.table, announced.doubled⟩
      exact positive_coreAfterBid conf _ d ⟨bidden.table, bidden.doubled⟩
  | force rob q p buff cfg skill =>
      exact positive_setLandlord conf true (positive_addMultiple .skill
        (conf.skill_pos p buff cfg skill) (positive_allWaiting (positive_send _ pos)))
  | delayed rob l => exact positive_landlordSet conf free
  | set rob l => exact positive_promptAll _ _ ⟨free.table, free.doubled⟩
  | double l p answered t type multiple key open' info =>
      have kept : 0 < Player.doubled { (c.players p).answered type with
          doubleAction := some type, doubleMultiple := some multiple } :=
        Nat.mul_pos (doubleInfo_pos info) (Nat.pos_of_mul_pos_left (pos.doubled p))
      exact positive_coreAnswer (c := c.modify p _) conf d type key (doubleInfo_pos info)
        (.inl state) (positive_modify _ kept pos)
  | doubled l =>
      exact positive_promptAll _ _ ⟨(fired []).table, (fired []).doubled⟩
  | doubleMax l p answered t type multiple key open' info =>
      have kept : 0 < Player.doubled { (c.players p).answered type with
          doubleMaxAction := some type, doubleMaxMultiple := some multiple } :=
        Nat.mul_pos (Nat.pos_of_mul_pos_right (pos.doubled p)) (doubleMaxInfo_pos info)
      exact positive_coreAnswer (c := c.modify p _) conf d type key (doubleMaxInfo_pos info)
        (.inr state) (positive_modify _ kept pos)
  | doubledMax l =>
      have landlord : c.landlordPlayer = some l := congrArg Control.landlordPlayer phase
      rw [coreFire_doubleMax conf d landlord]
      exact positive_turn conf d (fired _)
  | pass l p plays cards => exact positive_pass conf d state pos
  | passOut l p plays cards => exact positive_pass conf d state pos
  | play l p play m plays mirror bomb =>
      have raised := positive_bombMultiple conf play bomb (positive_recorded play pos)
      exact ⟨raised.table, raised.doubled⟩
  | mirrorRaised l p play plays mirror => exact positive_played (some play) pos
  | bombRaised l p play message plays mirror bomb => exact positive_recorded play pos
  | turn l p cards => exact positive_playing conf d .playCard state free
  | out l p cards => exact positive_playing conf d .playCard state free
  | next l last found =>
      rw [coreResume_next conf d found]
      exact positive_turn conf d (positive_modify _ (free.doubled _) free)
  | lost l found =>
      rw [coreResume_lost conf d found]
      exact free
  | ended l w =>
      exact positive_actionEnded conf ⟨(fired []).table, (fired []).doubled⟩

end Positive

/-- The factor a message announces for one of the keys. -/
def announcedFactor : Message → Option Nat
  | .roomSyncMultiple key val _ _ => if key ∈ announcedKeys then some val else none
  | _ => none

/-- All of them multiplied. -/
def announced (messages : List Message) : Nat := (messages.filterMap announcedFactor).prod

/-- One more message multiplies the product over the keys by its factor. -/
theorem prod_factors_cons (key : MultipleKey) (val : Nat) (p : Seat) (f : Seat → Nat)
    (messages : List Message) (keys : List MultipleKey) (distinct : keys.Nodup) :
    (keys.map fun k => (factors k (.roomSyncMultiple key val p f :: messages)).prod).prod =
      (if key ∈ keys then val else 1) * (keys.map fun k => (factors k messages).prod).prod := by
  induction keys with
  | nil => rfl
  | cons k keys ih =>
      obtain ⟨absent, distinct⟩ := List.nodup_cons.mp distinct
      rw [List.map_cons, List.prod_cons, ih distinct, List.map_cons, List.prod_cons]
      by_cases here : key = k
      · subst here
        rw [factors_cons_self, List.prod_cons, if_neg absent, if_pos List.mem_cons_self, one_mul,
          mul_assoc]
      · rw [factors_cons_ne here]
        simp only [List.mem_cons, here, false_or]
        exact mul_left_comm _ _ _

theorem prod_factors (messages : List Message) :
    (announcedKeys.map fun key => (factors key messages).prod).prod = announced messages := by
  induction messages with
  | nil => rfl
  | cons m messages ih =>
      cases factor : m.isFactor with
      | false =>
          have silent : announcedFactor m = none := by
            cases m with
            | roomSyncMultiple key val p f => cases factor
            | _ => rfl
          simp only [factors_cons_other factor, ih, announced, List.filterMap_cons, silent]
      | true =>
          cases m with
          | roomSyncMultiple key val p f =>
              rw [prod_factors_cons key val p f messages announcedKeys (by decide), ih]
              simp only [announced, List.filterMap_cons, announcedFactor]
              split
              · rw [List.prod_cons]
              · rw [one_mul]
          | _ => cases factor

theorem prod_tableOf (messages : List Message) :
    (multipleKeys.map fun key => (tableOf messages key).getD 1).prod = announced messages := by
  rw [← prod_factors]
  simp only [multipleKeys, announcedKeys, List.map_cons, List.map_nil, List.prod_cons,
    List.prod_nil, tableOf, Option.getD_some, Option.getD_none, one_mul, mul_one]

section Result
variable {conf : Conf} {agents : Seat → UserAgent} {gold : Seat → Int} {d : Draws}
  {es : List (Event × Draws)} {r : Room} {l : Seat}

/-- The multiples of a room whose landlord is `l`, from what has been announced. -/
structure MultiplesAgree (conf : Conf) (r : Room) (l : Seat) : Prop where
  farmer : ∀ p, p ≠ l → r.getMultiple p = conf.room_ratio * announced (sinceDeal r.sent) *
    (r.players l).doubled * (r.players p).doubled
  landlord : r.getMultiple l = r.getMultiple (l + 1) + r.getMultiple (l + 2)

theorem getFarmerArr_sum (flags : (fun q => (r.players q).isLandlord) = isSeat l)
    (f : Seat → Nat) : (r.getFarmerArr.map f).sum = f (l + 1) + f (l + 2) := by
  have flag : ∀ q, (r.players q).isLandlord = decide (q = l) := congrFun flags
  simp only [Room.getFarmerArr, flag]
  match l with
  | 0 => simp [Room.finRange_three]
  | 1 => exact (congrArg (f 0 + ·) (Nat.add_zero _)).trans (Nat.add_comm _ _)
  | 2 => simp [Room.finRange_three]

/-- What `getMultiple` computes once a landlord is set. -/
theorem getMultiple_eq (phase : r.control.landlordPlayer = some l)
    (flags : r.control.isLandlord = isSeat l) (table : TableOk r) (p : Seat) :
    r.getMultiple p = announced (sinceDeal r.sent) * (r.players l).doubled *
      if p = l then (r.players (l + 1)).doubled + (r.players (l + 2)).doubled
      else (r.players p).doubled := by
  have landlord : r.landlordPlayer = some l := phase
  have flag : (r.players p).isLandlord = decide (p = l) := congrFun flags p
  have product : (multipleKeys.map fun key => (r.multiple key).getD 1).prod =
      announced (sinceDeal r.sent) := by rw [table, prod_tableOf]
  simp only [Room.getMultiple, product, landlord, flag, decide_eq_true_eq,
    getFarmerArr_sum flags fun q => (r.players q).doubled]
  split <;> rfl

theorem announced_pos (table : TableOk r) (pos : Positive r) :
    0 < announced (sinceDeal r.sent) := by
  rw [← prod_tableOf, ← table]
  refine List.prod_pos fun m mem => ?_
  obtain ⟨key, _, rfl⟩ := List.mem_map.mp mem
  cases entry : r.multiple key with
  | none => exact Nat.one_pos
  | some m => exact pos.table key m entry

theorem announced_core : announced (sinceDeal r.core.sent) = announced (sinceDeal r.sent) := by
  refine congrArg List.prod (filterMap_sinceDeal_record announcedFactor ?_ r.sent)
  intro m hidden
  cases m with
  | roomSyncMultiple key val p f => cases hidden
  | _ => rfl

/-- The multiples of a room that has a landlord. -/
structure Multiplied (r : Room) (l : Seat) : Prop where
  isLandlord : ∀ p, (r.players p).isLandlord = decide (p = l)
  announced : 0 < announced (sinceDeal r.sent)
  doubled : ∀ p, 0 < (r.players p).doubled
  multiple : ∀ p, r.getMultiple p = Ddz.announced (sinceDeal r.sent) * (r.players l).doubled *
    if p = l then (r.players (l + 1)).doubled + (r.players (l + 2)).doubled
    else (r.players p).doubled

theorem run_multiplied
    (run : Run (Room.step conf) anyStep (Room.init conf agents gold d) es r)
    (set : r.landlordPlayer = some l) : Multiplied r l := by
  obtain ⟨ph, phase, ⟨table, _⟩, pos⟩ := Room.run_invariant (fun _ _ _ => True)
    (fun ph c => MultipleInv ph c ∧ Positive c) (fun _ _ _ _ => trivial)
    ⟨multipleInv_start conf gold d, positive_start conf gold d⟩
    (fun e d c c' ph ph' phase inv _ trans =>
      ⟨multipleInv_trans phase inv.1 trans, positive_trans phase inv.2 trans⟩) run
  have set' : ph.control.landlordPlayer = some l := phase ▸ set
  have flags : r.control.isLandlord = isSeat l :=
    (congrArg Control.isLandlord phase).trans (ph.isLandlord_eq set')
  refine ⟨congrFun flags, announced_core ▸ announced_pos table pos, pos.doubled, fun p => ?_⟩
  rw [← announced_core]
  exact getMultiple_eq (r := r.core) set flags table p

/-- The landlord's formula and the farmers' agree in every phase, but the room's ratio
is in neither. -/
theorem multiplesAgree_iff
    (run : Run (Room.step conf) anyStep (Room.init conf agents gold d) es r)
    (set : r.landlordPlayer = some l) : MultiplesAgree conf r l ↔ conf.room_ratio = 1 := by
  obtain ⟨_, told, doubled, multiple⟩ := run_multiplied run set
  constructor
  · intro agree
    have product : 0 < announced (sinceDeal r.sent) * (r.players l).doubled *
        (r.players (l + 1)).doubled :=
      Nat.mul_pos (Nat.mul_pos told (doubled l)) (doubled (l + 1))
    have farmer := agree.farmer (l + 1) (Seat.next_ne l)
    rw [multiple, if_neg (Seat.next_ne l), mul_assoc conf.room_ratio, mul_assoc conf.room_ratio]
      at farmer
    exact (Nat.eq_of_mul_eq_mul_right product ((one_mul _).trans farmer)).symm
  · intro one
    refine ⟨?_, ?_⟩
    · intro p farmer
      rw [multiple, if_neg farmer, one, one_mul]
    · rw [multiple, multiple, multiple, if_pos rfl, if_neg (Seat.next_ne l), if_neg (Seat.second_ne l), Nat.mul_add]

end Result

theorem multiplesAgree_called :
    ∃ r, Run (Room.step (.plain 1 Nat.one_pos)) anyStep (plainStart (.plain 1 Nat.one_pos))
      calledRun r ∧ r.landlordPlayer = some 0 ∧ MultiplesAgree (.plain 1 Nat.one_pos) r 0 := by
  have landlord : (exec (Room.step (.plain 1 Nat.one_pos)) (plainStart (.plain 1 Nat.one_pos))
      calledRun).map Room.landlordPlayer = some (some 0) := by decide +kernel
  obtain ⟨r, done, set⟩ := Option.map_eq_some_iff.mp landlord
  have run := run_of_exec _ _ r done
  exact ⟨r, run, set, (multiplesAgree_iff run set).mpr rfl⟩

/-- With a ratio of 2 the farmers' multiples miss a factor of 2. -/
theorem multiplesAgree_ratio_missing :
    ¬ ∀ (conf : Conf) (agents : Seat → UserAgent) (gold : Seat → Int) (d : Draws)
      (es : List (Event × Draws)) (r : Room) (l : Seat),
      Run (Room.step conf) anyStep (Room.init conf agents gold d) es r →
      r.landlordPlayer = some l → MultiplesAgree conf r l := by
  intro all
  have values : (exec (Room.step (.plain 2 Nat.two_pos)) (plainStart (.plain 2 Nat.two_pos))
      calledRun).map (fun r => (r.landlordPlayer, r.getMultiple 1, announced (sinceDeal r.sent),
        (r.players 0).doubled, (r.players 1).doubled)) = some (some 0, 4, 4, 1, 1) := by
    decide +kernel
  obtain ⟨r, done, values⟩ := Option.map_eq_some_iff.mp values
  simp only [Prod.mk.injEq] at values
  obtain ⟨set, multiple, product, landlord, farmer⟩ := values
  have agree := (all _ _ _ _ _ r 0 (run_of_exec _ _ r done) set).farmer 1 (by decide)
  rw [multiple, product, landlord, farmer] at agree
  exact absurd agree (by decide)

end HuluLandlord.Ddz
