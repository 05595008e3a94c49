import HuluLandlord.Ddz.Phase

/-!
What a doubling costs. `Double` and `DoubleMax` share the payment `payFor`; in the
phase that asks for them the payment succeeds whole or takes nothing.
-/
namespace HuluLandlord.Ddz
open Transition

namespace Room
variable {conf : Conf} {r : Room} {p q : Seat} {d : Draws}

section Agents

theorem agents_setActionState (state : PlayerState) :
    (r.setActionState p state d).agents = r.agents := by
  simp only [setActionState]
  split
  · rfl
  · split <;> rfl

theorem agents_setActionStateAll (state : PlayerState) :
    (r.setActionStateAll state d).agents = r.agents := by
  simp only [setActionStateAll, finRange_three, List.foldl_cons, List.foldl_nil,
    agents_setActionState]

theorem agents_dealTo : (r.dealTo conf p d).agents = r.agents := by
  have dealt := agents_setActionState (r := r) (p := p) (d := d) .dealCard
  simp only [dealTo]
  split <;> exact dealt

theorem agents_actionEnded : (r.actionEnded conf p).agents = r.agents := by
  simp only [actionEnded]
  split
  · split <;> rfl
  · split
    · rfl
    · split <;> rfl

theorem agents_action (state : RoomState) (player : Option Seat) :
    (r.action conf state player d).agents = r.agents := by
  cases state with
  | readyOk => exact agents_setActionStateAll (r := r.enter _ player) _
  | dealCard =>
      simp only [action, finRange_three, List.foldl_cons, List.foldl_nil, timeout, agents_dealTo]
      rfl
  | callLandlord => exact agents_setActionState (r := r.enter _ player) _
  | robLandlord => exact agents_setActionState (r := r.enter _ player) _
  | doubleing => exact agents_setActionStateAll (r := r.enter _ player) _
  | doubleMax => exact agents_setActionStateAll (r := r.enter _ player) _
  | playing => exact agents_setActionState (r := (r.enter _ player).setPlayCardState _ _) _
  | ended => exact agents_actionEnded (r := r.enter _ player)

theorem agents_afterBid (bid : Bid) : (r.afterBid conf bid d).agents = r.agents := by
  cases bid with
  | landlord p => rfl
  | _ => exact agents_action _ _

theorem agents_actionEnd (type : PlayerAction) :
    (r.actionEnd conf p type d).agents = r.agents := by
  simp only [actionEnd]
  split
  · exact agents_afterBid (r := r.setActionPlayerIndex p) _
  · exact agents_afterBid (r := setActionPlayerIndex _ _) _
  · split <;> rfl
  · split <;> rfl
  · split <;> rfl
  · rfl

theorem agents_announce (key : Option MultipleKey) (val : Nat) :
    (r.announce key val p).agents = r.agents := by
  cases key with
  | none => rfl
  | some key => rfl

theorem agents_doubleCommit (type : PlayerAction) (multiple : Nat) (key : Option MultipleKey) :
    (r.doubleCommit conf p type multiple key d).1.agents = r.agents := by
  simp only [doubleCommit, finish, agents_actionEnd, agents_announce]
  rfl

theorem agents_doubleMaxCommit (type : PlayerAction) (multiple : Nat)
    (key : Option MultipleKey) :
    (r.doubleMaxCommit conf p type multiple key d).1.agents = r.agents := by
  simp only [doubleMaxCommit, finish, agents_actionEnd, agents_announce]
  rfl

end Agents

section Payment
variable {itemId : ItemID} {shopId price : Nat} {phase : PlayerState} {paying : Bool}

/-- The shop sells one of the item for diamonds. -/
def Sells (shopId : Nat) (itemId : ItemID) (price : Nat) : Prop :=
  itemId ≠ .diamond ∧ ∃ row, store shopId = some row ∧ row.costId = .diamond ∧
    row.rewards = [(itemId, 1)] ∧ row.price = price

theorem sells_doubleSuper : Sells 500006 .gameDoubleSuper 1 :=
  ⟨by decide, _, rfl, rfl, rfl, rfl⟩

theorem sells_doubleMax : Sells 500007 .gameDoubleMax 2 :=
  ⟨by decide, _, rfl, rfl, rfl, rfl⟩

@[simp] theorem setAgent_self : r.setAgent p (r.agents p) = r := by
  simp [setAgent]

@[simp] theorem setAgent_setAgent (agent agent' : UserAgent) :
    (r.setAgent p agent).setAgent p agent' = r.setAgent p agent' := by
  simp [setAgent]

@[simp] theorem setAgent_agents_self (agent : UserAgent) :
    (r.setAgent p agent).agents p = agent := by
  simp [setAgent]

theorem setAgent_agents_ne (agent : UserAgent) (ne : q ≠ p) :
    (r.setAgent p agent).agents q = r.agents q := by
  simp [setAgent, ne]

theorem stockUp_setAgent : ∃ agent, (r.stockUp p itemId shopId phase).1 = r.setAgent p agent := by
  simp only [stockUp]
  split
  · exact ⟨_, setAgent_self.symm⟩
  · split <;> exact ⟨_, rfl⟩

theorem charge_setAgent : ∃ agent, (r.charge p itemId).1 = r.setAgent p agent := by
  simp only [charge]
  split <;> exact ⟨_, rfl⟩

/-- A payment changes the payer's agent only. -/
theorem payFor_setAgent :
    ∃ agent, (r.payFor p paying itemId shopId phase).1 = r.setAgent p agent := by
  have first : ∃ agent, (if paying then r.stockUp p itemId shopId phase else (r, none)).1 =
      r.setAgent p agent := by
    split
    · exact stockUp_setAgent
    · exact ⟨_, setAgent_self.symm⟩
  simp only [payFor]
  generalize (if paying then r.stockUp p itemId shopId phase else (r, none)) = stocked at first ⊢
  obtain ⟨m, refused⟩ := stocked
  obtain ⟨agent, rfl⟩ := first
  cases refused with
  | some retVal => exact ⟨agent, rfl⟩
  | none =>
      simp only
      split
      · exact ⟨agent, rfl⟩
      split
      · obtain ⟨agent', charged⟩ := @charge_setAgent (r.setAgent p agent) p itemId
        exact ⟨agent', charged.trans (setAgent_setAgent agent agent')⟩
      · exact ⟨agent, rfl⟩

theorem payFor_false : r.payFor p false itemId shopId phase =
    (r, if (r.players p).state = phase then none else some .fail_2) := by
  simp only [payFor, Bool.false_eq_true, if_false, ne_eq]
  by_cases asked : (r.players p).state = phase
  · rw [if_neg (not_not_intro asked), if_pos asked]
  · rw [if_pos asked, if_neg asked]

theorem payFor_free : (r.payFor p false itemId shopId phase).1 = r := by rw [payFor_false]

theorem stockUp_own (found : (r.agents p).has itemId 1 = true) :
    r.stockUp p itemId shopId phase = (r, none) := if_pos found

theorem charge_has {agent : UserAgent} (plain : itemId ≠ .diamond)
    (found : agent.has itemId 1 = true) :
    (r.setAgent p agent).charge p itemId =
      (r.setAgent p (agent.setNum itemId (agent.num itemId - 1)), none) := by
  simp only [charge, setAgent_agents_self, UserAgent.remove_of_has plain found, setAgent_setAgent]

/-- In the phase that asks for it, a payment succeeds whole or takes nothing. -/
theorem payFor_asked (sells : Sells shopId itemId price) (asked : (r.players p).state = phase) :
    r.payFor p true itemId shopId phase = (r, some .empty_7) ∨
      ∃ agent, r.payFor p true itemId shopId phase = (r.setAgent p agent, none) ∧
        UserAgent.ItemUsed itemId price (r.agents p) agent := by
  obtain ⟨plain, row, found, diamonds, single, rfl⟩ := sells
  have kept : ∀ agent, ((r.setAgent p agent).players p).state = phase := fun _ => asked
  cases own : (r.agents p).has itemId 1 with
  | true =>
      right
      refine ⟨_, ?_, UserAgent.itemUsed_own row.price plain own⟩
      have charged := charge_has (r := r) (p := p) plain own
      rw [setAgent_self] at charged
      simp only [payFor, if_true, stockUp_own own, asked, ne_eq, not_true_eq_false, if_false,
        charged]
  | false =>
      have bought := UserAgent.itemUsed_bought found diamonds single plain own
      have refused := @UserAgent.buyStore_refused (r.agents p) 1 shopId
      generalize shop : (r.agents p).buyStore shopId 1 = paid at bought refused
      obtain ⟨agent, retVal⟩ := paid
      by_cases ok : retVal = .succeed_1
      · right
        subst ok
        obtain ⟨has, used⟩ := bought rfl
        refine ⟨_, ?_, used⟩
        simp only [payFor, if_true, stockUp, own, Bool.false_eq_true, if_false, shop, asked, kept,
          ne_eq, not_true_eq_false, charge_has plain has]
      · left
        have same : agent = r.agents p := refused ok
        subst same
        have stocked : r.stockUp p itemId shopId phase = (r, some .empty_7) := by
          simp only [stockUp, own, Bool.false_eq_true, if_false, shop]
          cases retVal with
          | succeed_1 => exact absurd rfl ok
          | _ => simp
        simp only [payFor, if_true, stocked]

/-- The skill either takes nothing and leaves the payment due, or replaces it. -/
theorem heroSkill_cases : r.heroSkill conf p = (r, true) ∨
    ∃ agent, r.heroSkill conf p = (r.setAgent p agent, false) ∧
      UserAgent.SkillUsed (r.agents p) agent := by
  simp only [heroSkill]
  split
  · cases used : (r.agents p).heroSkillUse.2 with
    | true => exact .inr ⟨_, rfl, UserAgent.heroSkillUse_used used⟩
    | false =>
        left
        rw [UserAgent.heroSkillUse_refused used, setAgent_self]
        rfl
  · exact .inl rfl

end Payment

/-- What a request of player `p` that leads from `r` to `r'` costs. -/
structure Costs (r r' : Room) (p : Seat) (paying asked set : Prop)
    (cost : UserAgent → UserAgent → Prop) : Prop where
  others : ∀ q, q ≠ p → r'.agents q = r.agents q
  phase : set → asked
  free : ¬paying → r'.agents p = r.agents p
  refused : asked → ¬set → r'.agents p = r.agents p
  spent : paying → set → cost (r.agents p) (r'.agents p)

theorem Costs.mono {r r' : Room} {p : Seat} {paying asked set : Prop}
    {cost cost' : UserAgent → UserAgent → Prop} (weaker : ∀ a b, cost a b → cost' a b)
    (costs : Costs r r' p paying asked set cost) : Costs r r' p paying asked set cost' :=
  ⟨costs.others, costs.phase, costs.free, costs.refused,
    fun pays reached => weaker _ _ (costs.spent pays reached)⟩

/-- The costs of a payment and of what is done when it goes through. -/
theorem costs_payment {paying : Bool} {itemId : ItemID} {shopId price : Nat}
    {phase : PlayerState} {set : Room → Prop} {commit : Room → Room} {r' : Room}
    (sells : Sells shopId itemId price)
    (unset : ∀ m : Room, m.core = r.core → ¬set m)
    (sets : ∀ m : Room, m.core = r.core → (r.players p).state = phase → set (commit m))
    (agents : ∀ m : Room, (commit m).agents = m.agents)
    (result : r' = if (r.payFor p paying itemId shopId phase).2 = none then
      commit (r.payFor p paying itemId shopId phase).1
      else (r.payFor p paying itemId shopId phase).1) :
    Costs r r' p (paying = true) ((r.players p).state = phase) (set r')
      (UserAgent.ItemUsed itemId price) := by
  have core := payFor_core r p paying itemId shopId phase
  have asked := payFor_none r p paying itemId shopId phase
  obtain ⟨agent, paid⟩ := @payFor_setAgent r p itemId shopId phase paying
  have agents' : r'.agents = (r.payFor p paying itemId shopId phase).1.agents := by
    rw [result]
    split
    · exact agents _
    · rfl
  refine ⟨?_, ?_, ?_, ?_, ?_⟩
  · intro q ne
    rw [agents', paid, setAgent_agents_ne agent ne]
  · intro reached
    by_cases accepted : (r.payFor p paying itemId shopId phase).2 = none
    · exact asked accepted
    · rw [result, if_neg accepted] at reached
      exact absurd reached (unset _ core)
  · intro free
    cases paying with
    | true => exact absurd rfl free
    | false => rw [agents', payFor_free]
  · intro prompted missed
    by_cases accepted : (r.payFor p paying itemId shopId phase).2 = none
    · rw [result, if_pos accepted] at missed
      exact absurd (sets _ core prompted) missed
    · cases paying with
      | false => rw [agents', payFor_free]
      | true =>
          obtain lacking | ⟨agent, paid, _⟩ := payFor_asked sells prompted
          · rw [agents', lacking]
          · exact absurd (congrArg Prod.snd paid) accepted
  · intro pays reached
    subst pays
    by_cases accepted : (r.payFor p true itemId shopId phase).2 = none
    · obtain lacking | ⟨agent, paid, used⟩ := payFor_asked sells (asked accepted)
      · cases (congrArg Prod.snd lacking).symm.trans accepted
      · rw [agents', paid, setAgent_agents_self]
        exact used
    · rw [result, if_neg accepted] at reached
      exact absurd reached (unset _ core)

end Room

section Result
variable {conf : Conf} {agents : Seat → UserAgent} {gold : Seat → Int} {d₀ : Draws}
  {es : List (Event × Draws)} {r : Room}

/-- Whether `Double` (or `DoubleMax`) gave the player his factor. -/
def SetsDouble (r r' : Room) (p : Seat) : Prop :=
  (r'.players p).doubleMultiple ≠ (r.players p).doubleMultiple

def SetsDoubleMax (r r' : Room) (p : Seat) : Prop :=
  (r'.players p).doubleMaxMultiple ≠ (r.players p).doubleMaxMultiple

theorem doubleMultiple_of_core {m : Room} (same : m.core = r.core) (p : Seat) :
    (m.players p).doubleMultiple = (r.players p).doubleMultiple := by
  have inCore : (m.core.players p).doubleMultiple = (r.core.players p).doubleMultiple := by
    rw [same]
  exact inCore

theorem doubleMaxMultiple_of_core {m : Room} (same : m.core = r.core) (p : Seat) :
    (m.players p).doubleMaxMultiple = (r.players p).doubleMaxMultiple := by
  have inCore : (m.core.players p).doubleMaxMultiple = (r.core.players p).doubleMaxMultiple := by
    rw [same]
  exact inCore

theorem setsDouble_commit {m : Room} {ph : Phase} (phase : r.core.control = ph.control)
    (same : m.core = r.core) (p : Seat) (asked : (r.players p).state = .doubleing)
    (type : PlayerAction) (multiple : Nat) (key : Option MultipleKey) (d : Draws) :
    SetsDouble r (m.doubleCommit conf p type multiple key d).1 p := by
  have asked' : ph.control.pstate p = .doubleing :=
    (congrFun (congrArg Control.pstate phase) p).symm.trans asked
  obtain ⟨l, answered, rfl, open'⟩ := asked_double asked'
  have before : (r.players p).doubleMultiple.isSome = false :=
    (congrFun (congrArg Control.doubleSet phase) p).trans open'
  have core := Room.doubleCommit_core conf d m p type multiple key
  rw [same] at core
  have after' := control_coreDouble conf d l answered type multiple key phase open'
  rw [← core] at after'
  have set : Function.update answered p true p = true := Function.update_self p true answered
  have after : ((m.doubleCommit conf p type multiple key d).1.players p).doubleMultiple.isSome =
      true := (congrFun (congrArg Control.doubleSet after') p).trans set
  intro kept
  rw [kept, before] at after
  exact Bool.noConfusion after

theorem setsDoubleMax_commit {m : Room} {ph : Phase} (phase : r.core.control = ph.control)
    (same : m.core = r.core) (p : Seat) (asked : (r.players p).state = .doubleMax)
    (type : PlayerAction) (multiple : Nat) (key : Option MultipleKey) (d : Draws) :
    SetsDoubleMax r (m.doubleMaxCommit conf p type multiple key d).1 p := by
  have asked' : ph.control.pstate p = .doubleMax :=
    (congrFun (congrArg Control.pstate phase) p).symm.trans asked
  obtain ⟨l, answered, rfl, open'⟩ := asked_doubleMax asked'
  have before : (r.players p).doubleMaxMultiple.isSome = false :=
    (congrFun (congrArg Control.doubleMaxSet phase) p).trans open'
  have core := Room.doubleMaxCommit_core conf d m p type multiple key
  rw [same] at core
  have after' := control_coreDoubleMax conf d l answered type multiple key phase open'
  rw [← core] at after'
  have set : Function.update answered p true p = true := Function.update_self p true answered
  have after : ((m.doubleMaxCommit conf p type multiple key
      d).1.players p).doubleMaxMultiple.isSome = true :=
    (congrFun (congrArg Control.doubleMaxSet after') p).trans set
  intro kept
  rw [kept, before] at after
  exact Bool.noConfusion after

theorem doubleInfo_type {t : Option PlayerAction} {type : PlayerAction} {multiple : Nat}
    {key : Option MultipleKey} (info : Room.doubleInfo conf t = some (type, multiple, key)) :
    t = some type := by
  simp only [Room.doubleInfo] at info
  split at info
  all_goals simp only [Option.some.injEq, Prod.mk.injEq, reduceCtorEq] at info
  all_goals rw [info.1]

theorem doubleMaxInfo_type {t : Option PlayerAction} {type : PlayerAction} {multiple : Nat}
    {key : Option MultipleKey} (info : Room.doubleMaxInfo conf t = some (type, multiple, key)) :
    t = some type := by
  simp only [Room.doubleMaxInfo] at info
  split at info
  all_goals simp only [Option.some.injEq, Prod.mk.injEq, reduceCtorEq] at info
  all_goals rw [info.1]

theorem Double_result {t : Option PlayerAction} {type : PlayerAction} {multiple : Nat}
    {key : Option MultipleKey} (info : Room.doubleInfo conf t = some (type, multiple, key))
    (p : Seat) (d : Draws) :
    (r.Double conf p t d).1 =
      if (r.payFor p (type = .double_4 ∧ conf.isUser p) .gameDoubleSuper 500006 .doubleing).2 = none
      then ((r.payFor p (type = .double_4 ∧ conf.isUser p) .gameDoubleSuper 500006
        .doubleing).1.doubleCommit conf p type multiple key d).1
      else (r.payFor p (type = .double_4 ∧ conf.isUser p) .gameDoubleSuper 500006 .doubleing).1 := by
  simp only [Room.Double, info]
  generalize r.payFor p (type = .double_4 ∧ conf.isUser p) .gameDoubleSuper 500006 .doubleing = paid
  obtain ⟨m, refused⟩ := paid
  cases refused with
  | none => rfl
  | some retVal => rfl

theorem Double_costs {ph : Phase} (phase : r.core.control = ph.control) (p : Seat)
    (t : Option PlayerAction) (d : Draws) :
    Room.Costs r (r.Double conf p t d).1 p (t = some .double_4 ∧ conf.isUser p = true)
      ((r.players p).state = .doubleing) (SetsDouble r (r.Double conf p t d).1 p)
      (UserAgent.ItemUsed .gameDoubleSuper 1) := by
  cases info : Room.doubleInfo conf t with
  | none =>
      have same : (r.Double conf p t d).1 = r := by simp only [Room.Double, info]
      rw [same]
      exact ⟨fun _ _ => rfl, fun set => absurd rfl set, fun _ => rfl, fun _ _ => rfl,
        fun _ set => absurd rfl set⟩
  | some found =>
      obtain ⟨type, multiple, key⟩ := found
      have paying : (t = some .double_4 ∧ conf.isUser p = true) ↔
          decide (type = .double_4 ∧ conf.isUser p = true) = true := by
        simp [doubleInfo_type info]
      rw [paying]
      exact @Room.costs_payment r p _ _ _ _ _ (fun r' => SetsDouble r r' p)
        (fun m => (m.doubleCommit conf p type multiple key d).1) _ Room.sells_doubleSuper
        (fun m same set => set (doubleMultiple_of_core same p))
        (fun m same asked => setsDouble_commit phase same p asked type multiple key d)
        (fun m => Room.agents_doubleCommit type multiple key) (Double_result info p d)

/-- `DoubleMax` after the skill has been asked for. -/
theorem DoubleMax_result {t : Option PlayerAction} {type : PlayerAction} {multiple : Nat}
    {key : Option MultipleKey} (info : Room.doubleMaxInfo conf t = some (type, multiple, key))
    (p : Seat) (d : Draws) {m : Room} {isCost : Bool}
    (skill : (if decide (type = .doubleMax ∧ conf.isUser p = true) = true then r.heroSkill conf p
      else (r, true)) = (m, isCost)) :
    (r.DoubleMax conf p t d).1 =
      if (m.payFor p (isCost ∧ decide (type = .doubleMax ∧ conf.isUser p)) .gameDoubleMax 500007
        .doubleMax).2 = none
      then ((m.payFor p (isCost ∧ decide (type = .doubleMax ∧ conf.isUser p)) .gameDoubleMax 500007
        .doubleMax).1.doubleMaxCommit conf p type multiple key d).1
      else (m.payFor p (isCost ∧ decide (type = .doubleMax ∧ conf.isUser p)) .gameDoubleMax 500007
        .doubleMax).1 := by
  simp only [Room.DoubleMax, info, skill]
  generalize m.payFor p (isCost ∧ decide (type = .doubleMax ∧ conf.isUser p)) .gameDoubleMax 500007
    .doubleMax = paid
  obtain ⟨n, refused⟩ := paid
  cases refused with
  | none => rfl
  | some retVal => rfl

/-- The costs when the skill replaces the payment. -/
theorem DoubleMax_skill_costs {ph : Phase} (phase : r.core.control = ph.control) (p : Seat)
    (type : PlayerAction) (multiple : Nat) (key : Option MultipleKey) (d : Draws)
    (agent : UserAgent) (used : UserAgent.SkillUsed (r.agents p) agent) {r' : Room}
    (result : r' = if ((r.setAgent p agent).payFor p false .gameDoubleMax 500007 .doubleMax).2 = none
      then (((r.setAgent p agent).payFor p false .gameDoubleMax 500007
        .doubleMax).1.doubleMaxCommit conf p type multiple key d).1
      else ((r.setAgent p agent).payFor p false .gameDoubleMax 500007 .doubleMax).1) :
    Room.Costs r r' p (true = true) ((r.players p).state = .doubleMax) (SetsDoubleMax r r' p)
      (fun before after => UserAgent.ItemUsed .gameDoubleMax 2 before after ∨
        UserAgent.SkillUsed before after) := by
  have state : ((r.setAgent p agent).players p).state = (r.players p).state := rfl
  simp only [Room.payFor_false, state] at result
  by_cases prompted : (r.players p).state = .doubleMax
  · rw [if_pos prompted, if_pos rfl] at result
    have agents : r'.agents = (r.setAgent p agent).agents := by
      rw [result, Room.agents_doubleMaxCommit]
    have reached : SetsDoubleMax r r' p := by
      rw [result]
      exact setsDoubleMax_commit phase (Room.core_setAgent r p agent) p prompted type multiple key d
    refine ⟨?_, fun _ => prompted, fun free => absurd rfl free,
      fun _ missed => absurd reached missed, ?_⟩
    · intro q ne
      rw [agents, Room.setAgent_agents_ne agent ne]
    · intro _ _
      rw [agents, Room.setAgent_agents_self]
      exact .inr used
  · rw [if_neg prompted, if_neg (by simp)] at result
    have missed : ¬SetsDoubleMax r r' p := fun set => set (by
      rw [result]
      rfl)
    refine ⟨?_, fun set => absurd set missed, fun free => absurd rfl free,
      fun asked _ => absurd asked prompted, fun _ set => absurd set missed⟩
    intro q ne
    rw [result, Room.setAgent_agents_ne agent ne]

theorem DoubleMax_costs {ph : Phase} (phase : r.core.control = ph.control) (p : Seat)
    (t : Option PlayerAction) (d : Draws) :
    Room.Costs r (r.DoubleMax conf p t d).1 p (t = some .doubleMax ∧ conf.isUser p = true)
      ((r.players p).state = .doubleMax) (SetsDoubleMax r (r.DoubleMax conf p t d).1 p)
      (fun before after => UserAgent.ItemUsed .gameDoubleMax 2 before after ∨
        UserAgent.SkillUsed before after) := by
  cases info : Room.doubleMaxInfo conf t with
  | none =>
      have same : (r.DoubleMax conf p t d).1 = r := by simp only [Room.DoubleMax, info]
      rw [same]
      exact ⟨fun _ _ => rfl, fun set => absurd rfl set, fun _ => rfl, fun _ _ => rfl,
        fun _ set => absurd rfl set⟩
  | some found =>
      obtain ⟨type, multiple, key⟩ := found
      have paying : (t = some .doubleMax ∧ conf.isUser p = true) ↔
          decide (type = .doubleMax ∧ conf.isUser p = true) = true := by
        simp [doubleMaxInfo_type info]
      rw [paying]
      have result := fun m isCost => @DoubleMax_result conf r t type multiple key info p d m isCost
      generalize decide (type = .doubleMax ∧ conf.isUser p = true) = asks at result ⊢
      have item : (r.DoubleMax conf p t d).1 =
            (if (r.payFor p asks .gameDoubleMax 500007 .doubleMax).2 = none
            then ((r.payFor p asks .gameDoubleMax 500007 .doubleMax).1.doubleMaxCommit conf p type
              multiple key d).1
            else (r.payFor p asks .gameDoubleMax 500007 .doubleMax).1) →
          Room.Costs r (r.DoubleMax conf p t d).1 p (asks = true)
            ((r.players p).state = .doubleMax) (SetsDoubleMax r (r.DoubleMax conf p t d).1 p)
            (fun before after => UserAgent.ItemUsed .gameDoubleMax 2 before after ∨
              UserAgent.SkillUsed before after) := by
        intro paid
        exact (@Room.costs_payment r p _ _ _ _ _ (fun r' => SetsDoubleMax r r' p)
          (fun m => (m.doubleMaxCommit conf p type multiple key d).1) _ Room.sells_doubleMax
          (fun m same set => set (doubleMaxMultiple_of_core same p))
          (fun m same asked => setsDoubleMax_commit phase same p asked type multiple key d)
          (fun m => Room.agents_doubleMaxCommit type multiple key) paid).mono
          fun _ _ => Or.inl
      cases asks with
      | false =>
          have paid := result r true rfl
          exact item (by simpa using paid)
      | true =>
          obtain due | ⟨agent, replaced, used⟩ := @Room.heroSkill_cases conf r p
          · have paid := result r true due
            exact item (by simpa using paid)
          · have paid := result (r.setAgent p agent) false replaced
            exact DoubleMax_skill_costs phase p type multiple key d agent used
              (by simpa using paid)

/-- In the phase of a doubling, nothing is spent unless it is given; what is paid for
takes one item or one use of the skill. -/
theorem doubling_costs
    (run : Run (Room.step conf) anyStep (Room.init conf agents gold d₀) es r) (p : Seat)
    (t : Option PlayerAction) (d : Draws) :
    Room.Costs r (r.Double conf p t d).1 p (t = some .double_4 ∧ conf.isUser p = true)
      ((r.players p).state = .doubleing) (SetsDouble r (r.Double conf p t d).1 p)
      (UserAgent.ItemUsed .gameDoubleSuper 1) ∧
    Room.Costs r (r.DoubleMax conf p t d).1 p (t = some .doubleMax ∧ conf.isUser p = true)
      ((r.players p).state = .doubleMax) (SetsDoubleMax r (r.DoubleMax conf p t d).1 p)
      (fun before after => UserAgent.ItemUsed .gameDoubleMax 2 before after ∨
        UserAgent.SkillUsed before after) := by
  obtain ⟨ph, phase⟩ := Room.run_phase run
  exact ⟨Double_costs phase p t d, DoubleMax_costs phase p t d⟩

end Result

/-- The landlord is set and the doublings are asked for. -/
def doublingRun : List (Event × Draws) := calledRun ++ [(.resume, .plain (classic []))]

theorem doubling_costs_asked :
    ∃ r, Run (Room.step (.plain 1 Nat.one_pos)) anyStep (plainStart (.plain 1 Nat.one_pos))
        doublingRun r ∧ (r.players 1).state = .doubleing ∧
      Room.Costs r (r.Double (.plain 1 Nat.one_pos) 1 (some .double_4) (.plain (classic []))).1 1
        (some PlayerAction.double_4 = some .double_4 ∧
          (Conf.plain 1 Nat.one_pos).isUser 1 = true)
        ((r.players 1).state = .doubleing)
        (SetsDouble r
          (r.Double (.plain 1 Nat.one_pos) 1 (some .double_4) (.plain (classic []))).1 1)
        (UserAgent.ItemUsed .gameDoubleSuper 1) := by
  have state : (exec (Room.step (.plain 1 Nat.one_pos)) (plainStart (.plain 1 Nat.one_pos))
      doublingRun).map (fun r => (r.players 1).state) = some .doubleing := by decide +kernel
  obtain ⟨r, done, asked⟩ := Option.map_eq_some_iff.mp state
  have run := run_of_exec _ _ r done
  exact ⟨r, run, asked, (doubling_costs run 1 (some .double_4) (.plain (classic []))).1⟩

/-- Declining to double sets the factor 1 and costs nothing. -/
theorem notDouble_sets_free :
    ¬ ∀ (conf : Conf) (agents : Seat → UserAgent) (gold : Seat → Int) (d₀ d : Draws)
      (es : List (Event × Draws)) (r : Room) (p : Seat) (t : Option PlayerAction),
      Run (Room.step conf) anyStep (Room.init conf agents gold d₀) es r →
      (¬SetsDouble r (r.Double conf p t d).1 p → (r.Double conf p t d).1.agents = r.agents) ∧
      (SetsDouble r (r.Double conf p t d).1 p →
        UserAgent.ItemUsed .gameDoubleSuper 1 (r.agents p) ((r.Double conf p t d).1.agents p)) := by
  intro all
  have values : (exec (Room.step (.plain 1 Nat.one_pos)) (plainStart (.plain 1 Nat.one_pos))
      doublingRun).map (fun r =>
        let r' := (r.Double (.plain 1 Nat.one_pos) 1 (some .notDouble) (.plain (classic []))).1
        ((r.players 1).doubleMultiple, (r'.players 1).doubleMultiple, (r.agents 1).diamond,
          (r'.agents 1).diamond, (r.agents 1).has .gameDoubleSuper 1)) =
      some (none, some 1, 0, 0, false) := by decide +kernel
  obtain ⟨r, done, values⟩ := Option.map_eq_some_iff.mp values
  simp only [Prod.mk.injEq] at values
  obtain ⟨before, after, diamond, diamond', has⟩ := values
  have used := (all _ _ _ _ (.plain (classic [])) _ r 1 (some .notDouble)
    (run_of_exec _ _ r done)).2 (fun same => by
      rw [before, after] at same
      exact nomatch same)
  have paid := used.diamond
  rw [diamond, diamond', has] at paid
  exact absurd paid (by decide)

end HuluLandlord.Ddz
