import Mathlib.Data.List.Basic
import Mathlib.Tactic

/-!
Runs of a partial step function whose steps are filtered by a guard. The guard
carries the side condition under which a property of runs is claimed, so one
definition serves both the unrestricted runs and the conditional ones. Nothing
here depends on what the states or the events are.
-/
namespace HuluLandlord.Transition
variable {σ ε : Type*}

inductive Run (step : σ → ε → Option σ) (ok : σ → ε → Prop) (s : σ) : List ε → σ → Prop
  | refl : Run step ok s [] s
  | next {es : List ε} {t u : σ} {e : ε} :
      Run step ok s es t → ok t e → step t e = some u → Run step ok s (es ++ [e]) u

def anyStep : σ → ε → Prop := fun _ _ => True

variable {step : σ → ε → Option σ} {ok ok' : σ → ε → Prop} {s t u : σ} {es fs : List ε}

theorem Run.mono (weaker : ∀ s e, ok s e → ok' s e) (run : Run step ok s es t) :
    Run step ok' s es t := by
  induction run with
  | refl => exact .refl
  | next _ guard moved ih => exact .next ih (weaker _ _ guard) moved

/-- The induction rule for invariants. The invariant may use that the state is
itself reached by a guarded run. -/
theorem Run.invariant (Inv : σ → Prop) (start : Inv s)
    (preserved : ∀ t e u, Inv t → ok t e → step t e = some u → Inv u)
    (run : Run step ok s es t) : Inv t := by
  induction run with
  | refl => exact start
  | next _ guard moved ih => exact preserved _ _ _ ih guard moved

/-- A guard that, together with an invariant it keeps, implies another one. -/
theorem Run.strengthen (Inv : σ → Prop) (start : Inv s)
    (preserved : ∀ t e u, Inv t → ok t e → step t e = some u → ok' t e ∧ Inv u)
    (run : Run step ok s es t) : Run step ok' s es t ∧ Inv t := by
  induction run with
  | refl => exact ⟨.refl, start⟩
  | next _ guard moved ih =>
      obtain ⟨stronger, inv⟩ := preserved _ _ _ ih.2 guard moved
      exact ⟨.next ih.1 stronger moved, inv⟩

/-- Evaluate a list of events; `none` as soon as one of them is not enabled. -/
def exec (step : σ → ε → Option σ) : σ → List ε → Option σ
  | s, [] => some s
  | s, e :: es => (step s e).bind fun t => exec step t es

theorem Run.append (front : Run step ok s es t) (back : Run step ok t fs u) :
    Run step ok s (es ++ fs) u := by
  induction back with
  | refl => simpa using front
  | next _ guard moved ih =>
      rw [← List.append_assoc]
      exact .next ih guard moved

theorem run_of_exec (s : σ) (es : List ε) (t : σ) (done : exec step s es = some t) :
    Run step anyStep s es t := by
  induction es generalizing s with
  | nil =>
      simp only [exec, Option.some.injEq] at done
      exact done ▸ .refl
  | cons e es ih =>
      simp only [exec, Option.bind_eq_some_iff] at done
      obtain ⟨m, first, rest⟩ := done
      exact Run.append (.next .refl trivial first) (ih m rest)

theorem Run.nil (run : Run step ok s fs u) (whole : fs = []) : s = u := by
  cases run with
  | refl => rfl
  | next => exact absurd whole (List.append_ne_nil_of_right_ne_nil _ (List.cons_ne_nil _ []))

theorem Run.snoc {e : ε} (run : Run step ok s fs u) (whole : fs = es ++ [e]) :
    ∃ t, Run step ok s es t ∧ ok t e ∧ step t e = some u := by
  cases run with
  | refl => exact absurd whole.symm (List.append_ne_nil_of_right_ne_nil es (List.cons_ne_nil e []))
  | next front guard moved =>
      obtain ⟨rfl, last⟩ := List.append_inj' whole rfl
      obtain rfl := List.singleton_injective last
      exact ⟨_, front, guard, moved⟩

theorem Run.unique (run : Run step ok s es t) (other : Run step ok' s es u) : t = u := by
  induction run generalizing u with
  | refl => exact other.nil rfl
  | next front guard moved ih =>
      obtain ⟨m, before, _, moved'⟩ := other.snoc rfl
      obtain rfl := ih before
      exact Option.some.inj (moved.symm.trans moved')

/-- Where a property survives a step if and only if the step meets the guard, the runs that
meet it are those that have the property all along. -/
theorem Run.always_within (P : σ → Prop) (start : P s)
    (exact : ∀ front t e u, Run step (fun s e => ok' s e ∧ ok s e) s front t → ok' t e →
      step t e = some u → (P u ↔ ok t e))
    (run : Run step ok' s es t) :
    Run step (fun s e => ok' s e ∧ ok s e) s es t ↔
      ∀ front u, front <+: es → Run step ok' s front u → P u := by
  induction run with
  | refl =>
      refine iff_of_true .refl fun front u part ran => ?_
      obtain rfl := List.prefix_nil.mp part
      exact ran.nil rfl ▸ start
  | @next es t u e before allowed moved ih =>
      constructor
      · intro guarded front v part ran
        obtain ⟨m, earlier, guard, moved'⟩ := guarded.snoc rfl
        obtain rfl | part := List.prefix_concat_iff.mp part
        · obtain rfl := Run.unique guarded ran
          exact (exact _ _ _ _ earlier guard.1 moved').mpr guard.2
        · obtain rfl := Run.unique before earlier
          exact ih.mp earlier front v part ran
      · intro always
        have earlier : Run step (fun s e => ok' s e ∧ ok s e) s es t := ih.mpr fun front v part =>
          always front v (part.trans (List.prefix_append es [e]))
        have last : P u := always _ u List.prefix_rfl (.next before allowed moved)
        exact .next earlier ⟨allowed, (exact _ _ _ _ earlier allowed moved).mp last⟩ moved

theorem Run.always_iff (P : σ → Prop) (start : P s)
    (exact : ∀ front t e u, Run step ok s front t → step t e = some u → (P u ↔ ok t e))
    (run : Run step anyStep s es t) :
    Run step ok s es t ↔ ∀ front u, front <+: es → Run step anyStep s front u → P u := by
  have within := @Run.always_within _ _ step ok anyStep s t es P start
    (fun front t e u ran _ => exact front t e u (ran.mono fun _ _ both => both.2)) run
  rw [← within]
  exact ⟨Run.mono fun _ _ guard => ⟨trivial, guard⟩, Run.mono fun _ _ both => both.2⟩

/-- Where a property is lost for good by the steps that miss the guard, and kept by the others, it holds
after the runs that meet the guard. -/
theorem Run.holds_iff (P : σ → Prop) (start : P s)
    (exact : ∀ front t e u, Run step ok' s front t → ok' t e → step t e = some u →
      (P u ↔ P t ∧ ok t e))
    (run : Run step ok' s es t) : Run step ok s es t ↔ P t := by
  induction run with
  | refl => exact iff_of_true .refl start
  | @next es t u e before allowed moved ih =>
      rw [exact es t e u before allowed moved, ← ih]
      constructor
      · intro guarded
        obtain ⟨m, front, guard, moved'⟩ := guarded.snoc rfl
        obtain rfl := Run.unique before front
        exact ⟨front, guard⟩
      · exact fun both => .next both.1 both.2 moved

/-- A step that is refused where the guard fails. -/
def guarded (step : σ → ε → Option σ) (ok : σ → ε → Prop) [∀ s e, Decidable (ok s e)] :
    σ → ε → Option σ :=
  fun s e => if ok s e then step s e else none

theorem run_of_guarded [∀ s e, Decidable (ok s e)] (s : σ) (es : List ε) (t : σ)
    (done : exec (guarded step ok) s es = some t) : Run step ok s es t := by
  induction es generalizing s with
  | nil =>
      simp only [exec, Option.some.injEq] at done
      exact done ▸ .refl
  | cons e es ih =>
      simp only [exec, guarded, Option.bind_eq_some_iff] at done
      obtain ⟨m, first, rest⟩ := done
      split at first
      · rename_i allowed
        exact Run.append (.next .refl allowed first) (ih m rest)
      · cases first

/-- Fixed events are evaluated once, together with what is asked of the state they lead to. -/
theorem run_of_exec_any (step : σ → ε → Option σ) (s : σ) (es : List ε) (P : σ → Prop)
    [DecidablePred P]
    (done : (exec step s es).any (fun t => decide (P t)) = true) :
    ∃ t, Run step anyStep s es t ∧ P t := by
  obtain ⟨t, here, passed⟩ := (Option.any_eq_true _ _).mp done
  exact ⟨t, run_of_exec s es t here, of_decide_eq_true passed⟩

theorem run_of_guarded_any (step : σ → ε → Option σ) (ok : σ → ε → Prop)
    [∀ s e, Decidable (ok s e)] (s : σ) (es : List ε) (P : σ → Prop) [DecidablePred P]
    (done : (exec (guarded step ok) s es).any (fun t => decide (P t)) = true) :
    ∃ t, Run step ok s es t ∧ P t := by
  obtain ⟨t, here, passed⟩ := (Option.any_eq_true _ _).mp done
  exact ⟨t, run_of_guarded s es t here, of_decide_eq_true passed⟩

/-- A fold over distinct indices whose every step succeeds, settles its own index and
leaves the others as they are. -/
theorem foldlM_each {ι δ : Type*} {f : σ → ι → Except δ σ} (Inv : σ → Prop)
    (Pre Post : ι → σ → Prop)
    (step : ∀ s p, Inv s → Pre p s → ∃ t, f s p = .ok t ∧ Inv t ∧ Post p t ∧
      ∀ q, q ≠ p → (Pre q s → Pre q t) ∧ (Post q s → Post q t))
    {ps : List ι} (fresh : ps.Nodup) (inv : Inv s) (pre : ∀ p ∈ ps, Pre p s) :
    ∃ t, ps.foldlM f s = .ok t ∧ Inv t ∧ (∀ p ∈ ps, Post p t) ∧
      ∀ q, q ∉ ps → Post q s → Post q t := by
  induction ps generalizing s with
  | nil => exact ⟨s, rfl, inv, fun p mem => absurd mem List.not_mem_nil, fun _ _ post => post⟩
  | cons p ps ih =>
      obtain ⟨absent, fresh⟩ := List.nodup_cons.mp fresh
      obtain ⟨m, first, kept, settled, others⟩ := step s p inv (pre p List.mem_cons_self)
      obtain ⟨t, rest, kept, all, outside⟩ := ih fresh kept fun q mem =>
        (others q fun same => absent (same ▸ mem)).1 (pre q (List.mem_cons_of_mem p mem))
      refine ⟨t, ?_, kept, ?_, fun q mem post => ?_⟩
      · rw [List.foldlM_cons, first]
        exact rest
      · exact List.forall_mem_cons.mpr ⟨outside p absent settled, all⟩
      · rw [List.mem_cons, not_or] at mem
        exact outside q mem.2 ((others q mem.1).2 post)

end HuluLandlord.Transition
