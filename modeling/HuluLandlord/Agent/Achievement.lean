import HuluLandlord.Table
import HuluLandlord.Transition

/-!
The titles of a user: he is granted them for ever or for a time, wears one of them or none, and every
handler first looks for those whose time is over.
-/
namespace HuluLandlord.Agent
open Transition Table

inductive TitleStatus
  | Unknown
  | Own
  | Using
  deriving DecidableEq, Repr

/-- `expAt` is `-1` for a title that lasts for ever. -/
structure TitleData where
  id : Nat
  status : TitleStatus
  expAt : Int
  deriving DecidableEq, Repr

inductive LuaError
  | indexNumber
  deriving DecidableEq, Repr

/-- The `TitleList` in memory, once it is loaded, the one in the database, and `userInfo.title`. -/
structure Achievement where
  data : Option (List TitleData)
  stored : Option (List TitleData)
  SFlag : Bool
  title : Nat
  deriving DecidableEq, Repr

/-- `expireAt` is a number of seconds, or `none` for ever. `AddAchievement` names the titles for whose
points the user has enough. `refresh` stands for the handlers that do no more with the titles. -/
inductive AchievementStep
  | loadAndAddTitle (id : Nat) (expireAt : Option Nat) (now : Nat)
  | AddAchievement (ids : List Nat) (now : Nat)
  | UseAchieventTitle (titleId : Nat) (isUp : Bool) (now : Nat)
  | refresh (now : Nat)
  | restart
  deriving DecidableEq, Repr

/-- `currentAt.expAt` indexes a number, so the loop never gets past the test for a title with an
expiry that the user has. -/
def refresh (currentAt : Int) : List TitleData → Except LuaError (List TitleData)
  | [] => .ok []
  | t :: ts =>
      if t.status = .Using ∨ t.status = .Own then
        if t.expAt ≠ -1 then .error .indexNumber
        else (refresh currentAt ts).map (t :: ·)
      else (refresh currentAt ts).map (t :: ·)

/-- When a title that has `expAt` is over after it has been granted again. -/
def newExpAt (expAt expireAt currentTime : Int) : Int :=
  if expireAt = -1 then -1
  else if expAt ≤ currentTime then currentTime + expireAt
  else expAt + expireAt

def addTitile (titles : List TitleData) (id : Nat) (expireAt currentTime : Int) : List TitleData :=
  match titles.find? (·.id = id) with
  | none => titles ++ [⟨id, .Own, newExpAt 0 expireAt currentTime⟩]
  | some t =>
      if t.expAt = -1 then titles
      else titles.map fun u =>
        if u.id = id then ⟨id, .Own, newExpAt t.expAt expireAt currentTime⟩ else u

/-- No title is worn. -/
def takeOff (titles : List TitleData) : List TitleData :=
  titles.map fun t => if t.status = .Using then { t with status := .Own } else t

def putOn (titles : List TitleData) (id : Nat) : List TitleData :=
  titles.map fun t => if t.id = id then { t with status := .Using } else t

/-- The titles after the request, or `none` for one that is refused. -/
def UseTitile (titles : List TitleData) (id : Nat) (isUp : Bool) : Option (List TitleData) :=
  if isUp then
    match titles.find? (·.id = id) with
    | none => none
    | some t => if t.status ≠ .Own then none else some (putOn (takeOff titles) id)
  else some (takeOff titles)

namespace Achievement

def load (s : Achievement) : Achievement :=
  match s.data with
  | some _ => { s with SFlag := false }
  | none => { s with SFlag := false, data := some (s.stored.getD []) }

def save (s : Achievement) : Achievement :=
  if s.SFlag then { s with SFlag := false, stored := s.data } else s

def titles (s : Achievement) : List TitleData := s.load.data.getD []

/-- The titles have changed. -/
def put (s : Achievement) (titles : List TitleData) : Achievement :=
  { s with data := some titles, SFlag := true }.save

/-- What a handler makes of the loaded titles. -/
def handle (s : Achievement) : AchievementStep → Except LuaError Achievement
  | .loadAndAddTitle id expireAt now => do
      let titles ← refresh now s.titles
      let expireAt : Int := expireAt.elim (-1) (↑·)
      .ok (s.load.put (addTitile titles id expireAt now))
  | .AddAchievement ids now => do
      let titles ← refresh now s.titles
      .ok (s.load.put (ids.foldl (fun titles id =>
        if titles.any (·.id = id) then titles else addTitile titles id (-1) now) titles))
  | .UseAchieventTitle titleId isUp now => do
      let titles ← refresh now s.titles
      match UseTitile titles titleId isUp with
      | none => .ok s.load
      | some titles => .ok { s.load.put titles with title := if isUp then titleId else 0 }
  | .refresh now => do
      let _ ← refresh now s.titles
      .ok s.load
  | .restart => .ok { s with data := none, SFlag := false }

/-- A handler that fails has not changed anything but that the titles are loaded. -/
def step (s : Achievement) (e : AchievementStep) : Option Achievement :=
  match s.handle e with
  | .ok t => some t
  | .error _ => some s.load

def start : Achievement := ⟨none, none, false, 0⟩

end Achievement

section Refresh
variable {now : Int} {ts : List TitleData} {t : TitleData} {id : Nat}

theorem refresh_lasting (lasting : ∀ t ∈ ts, t.expAt = -1) : refresh now ts = .ok ts := by
  induction ts with
  | nil => rfl
  | cons t ts ih =>
      obtain ⟨first, rest⟩ := List.forall_mem_cons.mp lasting
      rw [refresh, ih rest, if_neg (not_not.mpr first), ite_self]
      rfl

theorem refresh_timed (mem : t ∈ ts) (owned : t.status ≠ .Unknown) (timed : t.expAt ≠ -1) :
    refresh now ts = .error .indexNumber := by
  induction ts with
  | nil => exact absurd mem List.not_mem_nil
  | cons head ts ih =>
      rw [refresh]
      obtain rfl | later := List.mem_cons.mp mem
      · have has : t.status = .Using ∨ t.status = .Own := by
          cases here : t.status with
          | Unknown => exact absurd here owned
          | Own => exact .inr rfl
          | Using => exact .inl rfl
        rw [if_pos has, if_pos timed]
      · rw [ih later]
        split
        · split <;> rfl
        · rfl

/-- What is granted anew comes in addition; a title for ever stays what it is. -/
theorem addTitile_cases (lasting : ∀ t ∈ ts, t.expAt = -1) (expireAt now : Int) :
    ((∃ t ∈ ts, t.id = id) ∧ addTitile ts id expireAt now = ts) ∨
    ((∀ t ∈ ts, t.id ≠ id) ∧
      addTitile ts id expireAt now = ts ++ [⟨id, .Own, newExpAt 0 expireAt now⟩]) := by
  rw [addTitile]
  cases found : ts.find? (·.id = id) with
  | none =>
      refine .inr ⟨fun t mem same => ?_, rfl⟩
      exact List.find?_eq_none.mp found t mem (decide_eq_true same)
  | some t =>
      have mem := List.mem_of_find?_eq_some found
      have same : t.id = id := by simpa using List.find?_some found
      exact .inl ⟨⟨t, mem, same⟩, if_pos (lasting t mem)⟩

end Refresh

namespace Achievement
variable {s t : Achievement} {ts : List TitleData} {e : AchievementStep}

/-- The titles and what `userInfo.title` says of them. -/
structure Worn (titles : List TitleData) (title : Nat) : Prop where
  distinct : (titles.map (·.id)).Nodup
  owned : ∀ t ∈ titles, t.status ≠ .Unknown
  using_ : ∀ t ∈ titles, t.status = .Using → title = t.id
  none_ : (∀ t ∈ titles, t.status ≠ .Using) → title = 0

structure TitlesInv (s : Achievement) : Prop where
  clean : s.SFlag = false
  synced : ∀ data, s.data = some data → s.stored.getD [] = data
  worn : Worn s.titles s.title

def Lasting (s : Achievement) : Prop := ∀ t ∈ s.titles, t.expAt = -1

theorem titles_load : s.load.titles = s.titles := by
  cases here : s.data <;> simp only [titles, load, here]

theorem inv_put {title : Nat} (worn : Worn ts title) : TitlesInv { s.put ts with title } :=
  ⟨rfl, fun _ same => Option.some.inj same, worn⟩

theorem inv_load (inv : TitlesInv s) : TitlesInv s.load := by
  refine ⟨?_, fun data same => ?_, ?_⟩
  · cases here : s.data <;> simp only [load, here]
  · cases here : s.data with
    | none =>
        simp only [load, here, Option.some.injEq] at same
        simpa only [load, here] using same
    | some data' =>
        simp only [load, here] at same ⊢
        exact inv.synced data (here.trans same)
  · rw [titles_load]
    cases here : s.data <;> simpa only [load, here] using inv.worn

theorem titles_restart (inv : TitlesInv s) :
    titles { s with data := none, SFlag := false } = s.titles := by
  cases here : s.data with
  | none => simp only [titles, load, here]
  | some data =>
      simp only [titles, load, here, Option.getD_some]
      exact inv.synced data here

theorem worn_concat {id : Nat} {expAt : Int} {title : Nat} (worn : Worn ts title)
    (new : ∀ t ∈ ts, t.id ≠ id) : Worn (ts ++ [⟨id, .Own, expAt⟩]) title := by
  refine ⟨nodup_map_snoc.mpr ⟨?_, worn.distinct⟩, ?_, ?_, fun bare => worn.none_ ?_⟩
  · rintro mem
    obtain ⟨t, here, same⟩ := List.mem_map.mp mem
    exact new t here same
  · exact List.forall_mem_append.mpr ⟨worn.owned, List.forall_mem_singleton.mpr (by simp)⟩
  · exact List.forall_mem_append.mpr ⟨worn.using_, List.forall_mem_singleton.mpr (by simp)⟩
  · exact fun t mem => bare t (List.mem_append_left _ mem)

theorem worn_addTitile {title : Nat} (worn : Worn ts title) (lasting : ∀ t ∈ ts, t.expAt = -1)
    (id : Nat) (expireAt now : Int) : Worn (addTitile ts id expireAt now) title := by
  obtain ⟨_, same⟩ | ⟨new, more⟩ := addTitile_cases lasting expireAt now
  · rw [same]
    exact worn
  · rw [more]
    exact worn_concat worn new

theorem takeOff_ids : (takeOff ts).map (·.id) = ts.map (·.id) := by
  rw [takeOff, List.map_map]
  refine List.map_congr_left fun t _ => ?_
  rw [Function.comp_apply]
  split <;> rfl

theorem putOn_ids (id : Nat) : (putOn ts id).map (·.id) = ts.map (·.id) := by
  rw [putOn, List.map_map]
  refine List.map_congr_left fun t _ => ?_
  rw [Function.comp_apply]
  split <;> rfl

theorem takeOff_own (owned : ∀ t ∈ ts, t.status ≠ .Unknown) : ∀ t ∈ takeOff ts, t.status = .Own := by
  intro t mem
  obtain ⟨t', old, rfl⟩ := List.mem_map.mp mem
  cases here : t'.status with
  | Unknown => exact absurd here (owned t' old)
  | Own => simp [here]
  | Using => simp

theorem worn_takeOff {title : Nat} (worn : Worn ts title) : Worn (takeOff ts) 0 := by
  have own := takeOff_own worn.owned
  refine ⟨?_, fun t mem => ?_, fun t mem same => ?_, fun _ => rfl⟩
  · rw [takeOff_ids]
    exact worn.distinct
  · rw [own t mem]
    decide
  · rw [own t mem] at same
    cases same

theorem worn_putOn {id : Nat} {title : Nat} (worn : Worn ts title) (has : ∃ t ∈ ts, t.id = id) :
    Worn (putOn (takeOff ts) id) id := by
  have own := takeOff_own worn.owned
  refine ⟨?_, fun t mem => ?_, fun t mem same => ?_, fun bare => ?_⟩
  · rw [putOn_ids, takeOff_ids]
    exact worn.distinct
  · obtain ⟨t', old, rfl⟩ := List.mem_map.mp mem
    split
    · simp
    · rw [own t' old]
      decide
  · obtain ⟨t', old, rfl⟩ := List.mem_map.mp mem
    split at same
    · rename_i here
      rw [if_pos here]
      exact here.symm
    · rw [own t' old] at same
      cases same
  · obtain ⟨t, mem, rfl⟩ := has
    have listed : t.id ∈ (takeOff ts).map (·.id) := by
      rw [takeOff_ids]
      exact List.mem_map_of_mem mem
    obtain ⟨t', mem, same⟩ := List.mem_map.mp listed
    refine absurd ?_ (bare _ (List.mem_map_of_mem mem))
    rw [if_pos same]

theorem takeOff_expAt (lasting : ∀ t ∈ ts, t.expAt = -1) : ∀ t ∈ takeOff ts, t.expAt = -1 := by
  intro t mem
  obtain ⟨t', old, rfl⟩ := List.mem_map.mp mem
  split
  · exact lasting t' old
  · exact lasting t' old

theorem putOn_expAt {id : Nat} (lasting : ∀ t ∈ ts, t.expAt = -1) :
    ∀ t ∈ putOn ts id, t.expAt = -1 := by
  intro t mem
  obtain ⟨t', old, rfl⟩ := List.mem_map.mp mem
  split
  · exact lasting t' old
  · exact lasting t' old

theorem worn_UseTitile {ts' : List TitleData} {id title : Nat} {isUp : Bool} (worn : Worn ts title)
    (used : UseTitile ts id isUp = some ts') : Worn ts' (if isUp then id else 0) := by
  cases isUp with
  | false =>
      obtain rfl := Option.some.inj used
      exact worn_takeOff worn
  | true =>
      simp only [UseTitile, if_true] at used
      cases found : ts.find? (·.id = id) with
      | none =>
          rw [found] at used
          cases used
      | some t =>
          simp only [found] at used
          split at used
          · cases used
          · obtain rfl := Option.some.inj used
            have same : t.id = id := by simpa using List.find?_some found
            exact worn_putOn worn ⟨t, List.mem_of_find?_eq_some found, same⟩

theorem UseTitile_expAt {ts' : List TitleData} {id : Nat} {isUp : Bool}
    (lasting : ∀ t ∈ ts, t.expAt = -1) (used : UseTitile ts id isUp = some ts') :
    ∀ t ∈ ts', t.expAt = -1 := by
  cases isUp with
  | false =>
      obtain rfl := Option.some.inj used
      exact takeOff_expAt lasting
  | true =>
      simp only [UseTitile, if_true] at used
      split at used
      · cases used
      · split at used
        · cases used
        · obtain rfl := Option.some.inj used
          exact putOn_expAt (takeOff_expAt lasting)

/-- The titles of a list that the user does not have are granted him for ever. -/
theorem grants_lasting {title : Nat} (ids : List Nat) (now : Int) (worn : Worn ts title)
    (lasting : ∀ t ∈ ts, t.expAt = -1) :
    Worn (ids.foldl (fun titles id =>
      if titles.any (·.id = id) then titles else addTitile titles id (-1) now) ts) title ∧
    ∀ t ∈ ids.foldl (fun titles id =>
      if titles.any (·.id = id) then titles else addTitile titles id (-1) now) ts, t.expAt = -1 := by
  induction ids generalizing ts with
  | nil => exact ⟨worn, lasting⟩
  | cons id ids ih =>
      rw [List.foldl_cons]
      split
      · exact ih worn lasting
      · refine ih (worn_addTitile worn lasting id (-1) now) ?_
        obtain ⟨_, same⟩ | ⟨_, more⟩ := @addTitile_cases _ id lasting (-1) now
        · rw [same]
          exact lasting
        · rw [more]
          exact List.forall_mem_append.mpr ⟨lasting, List.forall_mem_singleton.mpr rfl⟩

/-- No title is granted with an expiry, but for one that the user has for ever. -/
def Permanent (s : Achievement) : AchievementStep → Prop
  | .loadAndAddTitle id (some _) _ => ∃ t ∈ s.titles, t.id = id ∧ t.expAt = -1
  | .loadAndAddTitle _ none _ | .AddAchievement _ _ | .UseAchieventTitle _ _ _ | .refresh _ |
    .restart => True

/-- Once a title with an expiry is owned, every handler fails. -/
theorem handle_error (inv : TitlesInv s) (timed : ¬Lasting s) (loaded : e ≠ .restart) :
    s.handle e = .error .indexNumber := by
  rw [Lasting] at timed
  push Not at timed
  obtain ⟨t, mem, timed⟩ := timed
  have fails (now : Int) := @refresh_timed now _ _ mem (inv.worn.owned t mem) timed
  cases e with
  | loadAndAddTitle id expireAt now | AddAchievement ids now | UseAchieventTitle id isUp now
  | refresh now =>
      rw [handle, fails]
      rfl
  | restart => exact absurd rfl loaded

/-- A title with an expiry is one that the user does not have for ever. -/
theorem grant_lasting {id now : Nat} {expireAt : Option Nat} (lasting : Lasting s) :
    (∀ t ∈ addTitile s.titles id (expireAt.elim (-1) (↑·)) now, t.expAt = -1) ↔
      Permanent s (.loadAndAddTitle id expireAt now) := by
  obtain ⟨⟨t, mem, same⟩, kept⟩ | ⟨new, more⟩ :=
    @addTitile_cases _ id lasting (expireAt.elim (-1) (↑·)) now
  · rw [kept]
    refine iff_of_true lasting ?_
    cases expireAt with
    | none => trivial
    | some expireAt => exact ⟨t, mem, same, lasting t mem⟩
  · rw [more, List.forall_mem_append, List.forall_mem_singleton]
    refine (and_iff_right lasting).trans ?_
    cases expireAt with
    | none => exact iff_of_true rfl trivial
    | some expireAt =>
        refine iff_of_false ?_ fun ⟨t, mem, same, _⟩ => new t mem same
        have ends : newExpAt 0 expireAt now = now + expireAt := by
          rw [newExpAt, if_neg (by omega), if_pos (Int.natCast_nonneg now)]
        have timed : newExpAt 0 expireAt now ≠ -1 := by
          rw [ends]
          omega
        exact timed

theorem titles_step (inv : TitlesInv s) (moved : s.step e = some t) :
    TitlesInv t ∧ (Lasting t ↔ Lasting s ∧ Permanent s e) := by
  by_cases restarted : e = .restart
  · subst restarted
    obtain rfl := Option.some.inj moved
    have same := titles_restart inv
    refine ⟨⟨rfl, fun _ none_yet => (nomatch none_yet), ?_⟩, ?_⟩
    · rw [same]
      exact inv.worn
    · rw [Lasting, same]
      exact (and_iff_left trivial).symm
  by_cases lasting : Lasting s
  · have worn := inv.worn
    cases e with
    | loadAndAddTitle id expireAt now =>
        rw [step, handle, refresh_lasting lasting] at moved
        obtain rfl := Option.some.inj moved
        have loaded : s.load.title = s.title := by cases here : s.data <;> simp only [load, here]
        have granted := worn_addTitile worn lasting id (expireAt.elim (-1) (↑·)) now
        refine ⟨inv_put (s := s.load) (loaded ▸ granted), ?_⟩
        rw [and_iff_right lasting]
        exact grant_lasting lasting
    | AddAchievement ids now =>
        rw [step, handle, refresh_lasting lasting] at moved
        obtain rfl := Option.some.inj moved
        have loaded : s.load.title = s.title := by cases here : s.data <;> simp only [load, here]
        obtain ⟨granted, lasting'⟩ := grants_lasting ids now worn lasting
        refine ⟨inv_put (s := s.load) (loaded ▸ granted), ?_⟩
        exact iff_of_true lasting' ⟨lasting, trivial⟩
    | UseAchieventTitle titleId isUp now =>
        rw [step, handle, refresh_lasting lasting] at moved
        cases used : UseTitile s.titles titleId isUp with
        | none =>
            simp only [bind, Except.bind, used] at moved
            obtain rfl := Option.some.inj moved
            refine ⟨inv_load inv, ?_⟩
            rw [Lasting, titles_load]
            exact iff_of_true lasting ⟨lasting, trivial⟩
        | some ts =>
            simp only [bind, Except.bind, used] at moved
            obtain rfl := Option.some.inj moved
            refine ⟨inv_put (worn_UseTitile worn used), ?_⟩
            exact iff_of_true (UseTitile_expAt lasting used) ⟨lasting, trivial⟩
    | refresh now =>
        rw [step, handle, refresh_lasting lasting] at moved
        obtain rfl := Option.some.inj moved
        refine ⟨inv_load inv, ?_⟩
        rw [Lasting, titles_load]
        exact iff_of_true lasting ⟨lasting, trivial⟩
    | restart => exact absurd rfl restarted
  · rw [step, handle_error inv lasting restarted] at moved
    obtain rfl := Option.some.inj moved
    refine ⟨inv_load inv, ?_⟩
    rw [Lasting, titles_load]
    exact iff_of_false lasting fun both => lasting both.1

theorem inv_start : TitlesInv start :=
  ⟨rfl, fun _ none_yet => (nomatch none_yet), .nil, fun _ mem => absurd mem List.not_mem_nil,
    fun _ mem => absurd mem List.not_mem_nil, fun _ => rfl⟩

/-- Looking for titles that are over never fails and leaves none that is; one title is worn at most, and
`userInfo.title` says which. -/
structure Sound (s : Achievement) : Prop where
  refreshes : ∀ now, ∃ titles, refresh now s.titles = .ok titles ∧
    ∀ t ∈ titles, t.expAt ≠ -1 → t.expAt < now → t.status = .Unknown
  single : ∀ t ∈ s.titles, ∀ u ∈ s.titles, t.status = .Using → u.status = .Using → t = u
  title : ∀ t ∈ s.titles, t.status = .Using → s.title = t.id
  none_ : (∀ t ∈ s.titles, t.status ≠ .Using) → s.title = 0

theorem sound_iff (inv : TitlesInv s) : s.Sound ↔ Lasting s := by
  constructor
  · intro sound t mem
    by_contra timed
    obtain ⟨titles, ok, _⟩ := sound.refreshes 0
    rw [refresh_timed mem (inv.worn.owned t mem) timed] at ok
    cases ok
  · intro lasting
    refine ⟨fun now => ⟨s.titles, refresh_lasting lasting, ?_⟩, ?_, inv.worn.using_, inv.worn.none_⟩
    · exact fun t mem timed _ => absurd (lasting t mem) timed
    · intro t mem u mem' worn worn'
      have same : t.id = u.id := (inv.worn.using_ t mem worn).symm.trans (inv.worn.using_ u mem' worn')
      exact List.inj_on_of_nodup_map inv.worn.distinct mem mem' same

section Runs
variable {es : List AchievementStep} {ok : Achievement → AchievementStep → Prop}

theorem run_titlesInv (run : Run step ok start es s) : TitlesInv s := by
  apply run.invariant TitlesInv inv_start
  intro t e u inv _ moved
  exact (titles_step inv moved).1

/-- The titles are in order as long as none is granted with an expiry, and never again after. -/
theorem run_titles (run : Run step anyStep start es s) :
    Run step Permanent start es s ↔ s.Sound := by
  rw [sound_iff (run_titlesInv run)]
  apply run.holds_iff Lasting fun _ mem => absurd mem List.not_mem_nil
  intro front t e u before _ moved
  exact (titles_step (run_titlesInv before) moved).2

instance decPermanent : ∀ (s : Achievement) e, Decidable (Permanent s e)
  | s, .loadAndAddTitle id (some _) _ => inferInstanceAs (Decidable (∃ t ∈ s.titles, t.id = id ∧ _))
  | _, .loadAndAddTitle _ none _ | _, .AddAchievement _ _ | _, .UseAchieventTitle _ _ _
  | _, .refresh _ | _, .restart => .isTrue trivial

/-- Two titles are earned, each is worn in turn, and then none. -/
def wornInTurn : List AchievementStep :=
  [.AddAchievement [10001, 10002] 5, .UseAchieventTitle 10001 true 6, .restart,
    .UseAchieventTitle 10002 true 7, .loadAndAddTitle 10002 (some 60) 8,
    .UseAchieventTitle 10002 false 9, .refresh 10]

theorem run_titles_worn : ∃ s, Run step Permanent start wornInTurn s ∧ s.Sound ∧
    s.titles.map (·.status) = [.Own, .Own] := by
  obtain ⟨s, run, owned⟩ := run_of_guarded_any step Permanent start wornInTurn
    (fun s => s.titles.map (·.status) = [.Own, .Own]) (by decide +kernel)
  exact ⟨s, run, (run_titles (run.mono fun _ _ _ => trivial)).mp run, owned⟩

/-- A title for thirty days, and every look at the titles fails. -/
theorem titles_fail : ¬∀ (es : List AchievementStep) (s : Achievement),
    Run step anyStep start es s → s.Sound := by
  intro all
  obtain ⟨s, run, timed⟩ := run_of_exec_any step start [.loadAndAddTitle 40002 (some 2592000) 5]
    (fun s => s.titles = [⟨40002, .Own, 2592005⟩]) (by decide +kernel)
  obtain ⟨titles, ok, _⟩ := (all _ s run).refreshes 6
  rw [timed] at ok
  cases ok

end Runs

end Achievement

end HuluLandlord.Agent
