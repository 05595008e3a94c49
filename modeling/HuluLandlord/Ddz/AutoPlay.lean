import HuluLandlord.Ddz.Decompose
import HuluLandlord.Ddz.Robot

/-!
The moves of the auto-player are made of pieces of its decomposition, each used once,
so none of them names a card twice or one that is not in the hand.
-/
namespace HuluLandlord.Ddz

/-- The singles of a decomposition are single cards. -/
def Split.Singles (s : Split) : Prop := ∀ cards ∈ s.dan_list, cards.length = 1

theorem split_singles (cards : List Card) : (split_cards cards).Singles := by
  intro single mem
  have found := List.mem_append.mp ((List.mem_insertionSort _).mp mem)
  obtain plain | king := found
  · simpa using (List.mem_filter.mp plain).2
  · obtain ⟨card, _, rfl⟩ := List.mem_map.mp king
    rfl

section Moves
variable {s : Split} {last : PlayCardObj} {move : Move} {lists : List (List Card)}

theorem firstCards_pieces (single : ∀ cards ∈ lists, cards.length = 1) :
    (firstCards lists : Multiset Card) = pieces lists := by
  induction lists with
  | nil => rfl
  | cons cards lists ih =>
      obtain ⟨card, rfl⟩ := List.length_eq_one_iff.mp (single cards List.mem_cons_self)
      rw [pieces_cons, ← ih fun cards mem => single cards (List.mem_cons_of_mem _ mem)]
      rfl

/-- The singles taken as wings. -/
theorem firstCards_le (singles : s.Singles) (n : Nat) :
    (firstCards (s.dan_list.take n) : Multiset Card) ≤ pieces s.dan_list := by
  rw [firstCards_pieces fun cards mem => singles cards (List.mem_of_mem_take mem)]
  exact pieces_sublist (List.take_sublist n _)

theorem flatten_take_le (lists : List (List Card)) (n : Nat) :
    ((lists.take n).flatten : Multiset Card) ≤ pieces lists :=
  pieces_sublist (List.take_sublist n lists)

theorem duiWings_le {ndui n : Nat} {wings : List Card} (taken : duiWings lists ndui n = .ok wings) :
    (wings : Multiset Card) ≤ pieces lists := by
  induction lists generalizing ndui n wings with
  | nil =>
      cases ndui with
      | zero =>
          obtain rfl := Except.ok.inj taken
          exact Multiset.zero_le _
      | succ ndui => cases taken
  | cons cards lists ih =>
      cases ndui with
      | zero =>
          obtain rfl := Except.ok.inj taken
          exact Multiset.zero_le _
      | succ ndui =>
          rw [duiWings] at taken
          split at taken
          · simp only [bind, Except.bind] at taken
            cases rest : duiWings lists ndui (n - cards.length) with
            | error message => simp only [rest] at taken; cases taken
            | ok others =>
                simp only [rest] at taken
                obtain rfl := Except.ok.inj taken
                rw [← Multiset.coe_add, pieces_cons]
                exact add_le_add_right (ih rest) _
          · obtain rfl := Except.ok.inj taken
            rw [pieces_cons]
            exact (Multiset.coe_le.mpr (List.take_sublist n cards).subperm).trans
              (Multiset.le_add_right _ _)

/-- A piece of threes with wings. -/
theorem winged_le {body wings : List Card} (found : body ∈ s.three_list)
    (taken : (wings : Multiset Card) ≤ pieces s.dui_list + pieces s.dan_list) :
    ((body ++ wings : List Card) : Multiset Card) ≤ s.cards := by
  rw [← Multiset.coe_add]
  calc _ ≤ pieces s.three_list + (pieces s.dui_list + pieces s.dan_list) :=
        add_le_add (pieces_mem found) taken
    _ ≤ s.cards := by
        rw [Split.cards, add_assoc, add_assoc]
        exact Multiset.le_add_left _ _

theorem get_threeX_le (singles : s.Singles) (found : get_threeX s = .ok (some move)) :
    (move.cards : Multiset Card) ≤ s.cards := by
  rw [get_threeX] at found
  cases threes : s.three_list with
  | nil => simp only [threes] at found; cases found
  | cons three others =>
      have mem : three ∈ s.three_list := threes ▸ List.mem_cons_self
      simp only [threes] at found
      split at found
      · obtain rfl := Option.some.inj (Except.ok.inj found)
        exact winged_le mem ((firstCards_le singles _).trans (Multiset.le_add_left _ _))
      split at found
      · obtain rfl := Option.some.inj (Except.ok.inj found)
        exact winged_le mem ((flatten_take_le _ _).trans (Multiset.le_add_right _ _))
      split at found
      · simp only [bind, Except.bind] at found
        split at found
        · cases found
        split at found
        · cases found
        rename_i wings taken
        obtain rfl := Option.some.inj (Except.ok.inj found)
        rw [List.append_assoc]
        refine winged_le mem ?_
        rw [← Multiset.coe_add, add_comm]
        exact add_le_add (duiWings_le taken) (firstCards_le singles _)
      · cases found

theorem piece_le {cards : List Card}
    (found : cards ∈ s.three_list ∨ cards ∈ s.dui_list ∨ cards ∈ s.dan_list) :
    (cards : Multiset Card) ≤ s.cards := by
  have all : (cards : Multiset Card) ≤
      pieces s.three_list + pieces s.dui_list + pieces s.dan_list := by
    obtain three | dui | dan := found
    · exact ((pieces_mem three).trans (Multiset.le_add_right _ _)).trans (Multiset.le_add_right _ _)
    · exact ((pieces_mem dui).trans (Multiset.le_add_left _ _)).trans (Multiset.le_add_right _ _)
    · exact (pieces_mem dan).trans (Multiset.le_add_left _ _)
  refine all.trans ?_
  rw [Split.cards, add_assoc, add_assoc, add_assoc]
  exact Multiset.le_add_left _ _

theorem type_list_le (found : move ∈ s.type_list) : (move.cards : Multiset Card) ≤ s.cards := by
  have mem : move.cards ∈ s.type_list.map Move.cards := List.mem_map_of_mem found
  refine (pieces_mem mem).trans ?_
  rw [Split.cards, add_assoc, add_assoc]
  exact Multiset.le_add_right _ _

theorem get_playedcards_le (singles : s.Singles) (found : get_playedcards s = .ok move) :
    (move.cards : Multiset Card) ≤ s.cards := by
  simp only [get_playedcards, bind, Except.bind] at found
  split at found
  · cases found
  rename_i threeX winged
  cases threeX with
  | some threex =>
      obtain rfl := Except.ok.inj found
      exact get_threeX_le singles winged
  | none =>
      simp only at found
      split at found
      · rename_i dan _ dans
        obtain rfl := Except.ok.inj found
        exact piece_le (.inr (.inr (dans ▸ List.mem_cons_self)))
      · rename_i dui _ duis
        obtain rfl := Except.ok.inj found
        exact piece_le (.inr (.inl (duis ▸ List.mem_cons_self)))
      · rename_i three _ threes
        obtain rfl := Except.ok.inj found
        exact piece_le (.inl (threes ▸ List.mem_cons_self))
      · rename_i item _ types
        obtain rfl := Except.ok.inj found
        exact type_list_le (types ▸ List.mem_cons_self)
      · cases found

theorem daidanWings_le (singles : s.Singles) {n : Nat} {wings : List Card}
    (taken : daidanWings s n = .ok wings) :
    (wings : Multiset Card) ≤ pieces s.dui_list + pieces s.dan_list := by
  simp only [daidanWings] at taken
  split at taken
  · obtain rfl := Except.ok.inj taken
    rw [← Multiset.coe_add, add_comm]
    exact add_le_add (flatten_take_le _ _) (firstCards_le singles _)
  · cases taken

theorem threeAbove_mem {weight : Nat} {fits : List Card → Bool} {body : List Card}
    (found : threeAbove s weight fits = some body) : body ∈ s.three_list :=
  List.mem_of_find?_eq_some found

theorem searcher_le (singles : s.Singles) (found : searcher s last = .ok (some move)) :
    (move.cards : Multiset Card) ≤ s.cards := by
  have plain : ∀ {lists : List (List Card)} {type : CardType},
      (∀ cards ∈ lists, cards ∈ s.three_list ∨ cards ∈ s.dui_list ∨ cards ∈ s.dan_list) →
      ((lists.find? fun cards => firstValue cards > last.weight).map fun cards =>
        (⟨type, firstValue cards, cards⟩ : Move)) = some move →
      (move.cards : Multiset Card) ≤ s.cards := by
    intro lists type source found
    obtain ⟨cards, mem, rfl⟩ := Option.map_eq_some_iff.mp found
    exact piece_le (source cards (List.mem_of_find?_eq_some mem))
  have winged : ∀ {fits : List Card → Bool} {type : CardType} {wings : List Card},
      (wings : Multiset Card) ≤ pieces s.dui_list + pieces s.dan_list →
      ((threeAbove s last.weight fits).map fun body =>
        (⟨type, firstValue body, body ++ wings⟩ : Move)) = some move →
      (move.cards : Multiset Card) ≤ s.cards := by
    intro fits type wings taken found
    obtain ⟨body, mem, rfl⟩ := Option.map_eq_some_iff.mp found
    exact winged_le (threeAbove_mem mem) taken
  simp only [searcher] at found
  split at found
  · exact plain (fun cards mem => .inr (.inr mem)) (Except.ok.inj found)
  · exact plain (fun cards mem => .inr (.inl mem)) (Except.ok.inj found)
  · exact winged (Multiset.zero_le _) (Except.ok.inj found)
  · split at found
    · cases found
    · rename_i dan _ dans
      have single : ((firstCards [dan] : List Card) : Multiset Card) ≤ pieces s.dan_list := by
        have first := firstCards_le singles 1
        rw [dans] at first ⊢
        exact first
      exact winged (single.trans (Multiset.le_add_left _ _)) (Except.ok.inj found)
  · split at found
    · cases found
    · rename_i dui _ duis
      have pair : (dui : Multiset Card) ≤ pieces s.dui_list :=
        pieces_mem (duis ▸ List.mem_cons_self)
      exact winged (pair.trans (Multiset.le_add_right _ _)) (Except.ok.inj found)
  · exact winged (Multiset.zero_le _) (Except.ok.inj found)
  · split at found
    · split at found
      · cases found
      · rename_i body above
        simp only [bind, Except.bind] at found
        split at found
        · cases found
        · rename_i wings taken
          obtain rfl := Option.some.inj (Except.ok.inj found)
          exact winged_le (threeAbove_mem above) (daidanWings_le singles taken)
    · cases found
  · split at found
    · exact winged ((flatten_take_le _ _).trans (Multiset.le_add_right _ _)) (Except.ok.inj found)
    · cases found
  all_goals cases found

theorem find_bigger_le (singles : s.Singles) (found : find_bigger s last = .ok (some move)) :
    (move.cards : Multiset Card) ≤ s.cards := by
  simp only [find_bigger, bind, Except.bind] at found
  split at found
  · cases found
  rename_i searched result
  cases searched with
  | some bigger =>
      obtain rfl := Option.some.inj (Except.ok.inj found)
      exact searcher_le singles result
  | none => exact type_list_le (List.mem_of_find?_eq_some (Except.ok.inj found))

end Moves

/-- The auto-player decides on cards of its copy of the hand, each used once. -/
theorem getPlayCardObj_le {cards : List Card} {playstate : PlayCardState} {friend : Bool}
    {last : Option PlayCardObj} {roll : ℚ} {move : Move}
    (decided : (RobotAgent.init_handcards cards).getPlayCardObj playstate friend last roll =
      .ok (some move)) : (move.cards : Multiset Card) ≤ cards := by
  have singles := split_singles cards
  refine le_trans ?_ (split_le cards)
  simp only [RobotAgent.getPlayCardObj] at decided
  split at decided
  · split at decided
    · rename_i last
      simp only [RobotAgent.after_friend_playcard, bind, Except.bind] at decided
      split at decided
      · cases decided
      rename_i bigger result
      split at decided
      · rename_i winning filtered
        obtain rfl := Option.some.inj (Except.ok.inj decided)
        obtain ⟨found, _⟩ := Option.filter_eq_some_iff.mp filtered
        exact find_bigger_le singles (found ▸ result)
      split at decided
      · cases decided
      split at decided
      · exact searcher_le singles decided
      · cases decided
    · exact find_bigger_le singles decided
  · cases decided
  · simp only [bind, Except.bind] at decided
    split at decided
    · cases decided
    · rename_i played found
      obtain rfl := Option.some.inj (Except.ok.inj decided)
      exact get_playedcards_le singles found

end HuluLandlord.Ddz
