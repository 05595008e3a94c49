import Mathlib.Data.List.Infix

/-!
Replacing a word in a text. The text is read from left to right and the word replaced where
it stands, so that occurrences taken do not overlap.
-/
namespace HuluLandlord.Replace

section Replace
variable {α : Type*} [DecidableEq α] {old new word text text' : List α} {c : α}

/-- `skip` characters of an occurrence are still to be passed. -/
def replaceFrom (old new : List α) : Nat → List α → List α
  | _, [] => []
  | skip + 1, _ :: text => replaceFrom old new skip text
  | 0, c :: text =>
      if old <+: c :: text then new ++ replaceFrom old new (old.length - 1) text
      else c :: replaceFrom old new 0 text

def replaceAll (old new text : List α) : List α := replaceFrom old new 0 text

@[simp] theorem replaceAll_nil (old new : List α) : replaceAll old new [] = [] := rfl

theorem replaceFrom_append (front back : List α) :
    replaceFrom old new front.length (front ++ back) = replaceAll old new back := by
  induction front with
  | nil => rfl
  | cons c front ih => exact ih

theorem replaceAll_hit (some_ : old ≠ []) (text : List α) :
    replaceAll old new (old ++ text) = new ++ replaceAll old new text := by
  obtain ⟨c, rest, rfl⟩ := List.exists_cons_of_ne_nil some_
  rw [replaceAll, List.cons_append, replaceFrom, ← List.cons_append, if_pos (List.prefix_append _ _)]
  exact congrArg (new ++ ·) (replaceFrom_append rest text)

theorem replaceAll_miss (other : ¬old <+: c :: text) :
    replaceAll old new (c :: text) = c :: replaceAll old new text := by
  rw [replaceAll, replaceFrom, if_neg other, ← replaceAll]

/-- A text is empty, or begins with the word, or with a character at which it does not stand. -/
theorem induct {motive : List α → Prop} (some_ : old ≠ []) (nil : motive [])
    (hit : ∀ text, motive text → motive (old ++ text))
    (miss : ∀ c text, ¬old <+: c :: text → motive text → motive (c :: text)) (text : List α) :
    motive text := by
  induction size : text.length using Nat.strong_induction_on generalizing text with
  | _ n ih =>
      cases text with
      | nil => exact nil
      | cons c rest =>
          by_cases here : old <+: c :: rest
          · obtain ⟨back, same⟩ := here
            have pos := List.length_pos_iff.mpr some_
            have sum := congrArg List.length same
            rw [List.length_append] at sum
            rw [← same]
            exact hit back (ih _ (by omega) back rfl)
          · exact miss c rest here (ih _ (by rw [← size, List.length_cons]; exact Nat.lt_succ_self _) rest rfl)

/-- A word that shares no character with the replacement was read character by character. -/
theorem read_front {post : List α} (some_ : old ≠ []) (fresh : new ≠ []) (apart : ∀ c ∈ word, c ∉ new)
    (same : replaceAll old new text = word ++ post) :
    ∃ rest, text = word ++ rest ∧ replaceAll old new rest = post := by
  induction word generalizing text with
  | nil => exact ⟨text, rfl, same⟩
  | cons c word ih =>
      cases text with
      | nil => cases same
      | cons d text =>
          by_cases here : old <+: d :: text
          · obtain ⟨back, whole⟩ := here
            obtain ⟨e, new, rfl⟩ := List.exists_cons_of_ne_nil fresh
            rw [← whole, replaceAll_hit some_] at same
            obtain rfl := (List.cons.inj same).1
            exact absurd List.mem_cons_self (apart e List.mem_cons_self)
          · rw [replaceAll_miss here] at same
            obtain ⟨rfl, more⟩ := List.cons.inj same
            obtain ⟨rest, rfl, after⟩ := ih (fun c mem => apart c (List.mem_cons_of_mem _ mem)) more
            exact ⟨rest, rfl, after⟩

/-- Such a word was in the text, at a place where the word replaced did not stand. -/
theorem read_inside {pre post : List α} (some_ : old ≠ []) (fresh : new ≠ []) (filled : word ≠ [])
    (apart : ∀ c ∈ word, c ∉ new) (same : replaceAll old new text = pre ++ word ++ post) :
    ∃ front rest, text = front ++ word ++ rest ∧ ¬old <+: word ++ rest ∧ replaceAll old new rest = post := by
  induction text using induct some_ generalizing pre with
  | nil =>
      have all := congrArg List.length same
      have pos := List.length_pos_iff.mpr filled
      simp only [replaceAll_nil, List.length_nil, List.length_append] at all
      omega
  | hit text ih =>
      rw [replaceAll_hit some_, List.append_assoc] at same
      obtain ⟨more, rfl, rest⟩ | ⟨more, cut, rest⟩ := List.append_eq_append_iff.mp same
      · obtain ⟨front, back, rfl, outside, after⟩ := ih (rest.trans (List.append_assoc _ _ _).symm)
        exact ⟨old ++ front, back, by simp only [List.append_assoc], outside, after⟩
      · cases more with
        | nil =>
            obtain ⟨front, back, rfl, outside, after⟩ := @ih [] rest.symm
            exact ⟨old ++ front, back, by simp only [List.append_assoc], outside, after⟩
        | cons c more =>
            obtain ⟨d, word, rfl⟩ := List.exists_cons_of_ne_nil filled
            obtain ⟨rfl, -⟩ := List.cons.inj rest
            exact absurd (cut ▸ List.mem_append_right _ List.mem_cons_self) (apart d List.mem_cons_self)
  | miss c text other ih =>
      cases pre with
      | nil =>
          obtain ⟨rest, whole, after⟩ := read_front some_ fresh apart same
          exact ⟨[], rest, whole, whole ▸ other, after⟩
      | cons d pre =>
          rw [replaceAll_miss other] at same
          obtain ⟨rfl, more⟩ := List.cons.inj same
          obtain ⟨front, rest, rfl, outside, after⟩ := ih more
          exact ⟨c :: front, rest, rfl, outside, after⟩

/-- A word that shares no character with its replacement is gone. -/
theorem replaceAll_absent (some_ : old ≠ []) (fresh : new ≠ []) (apart : ∀ c ∈ old, c ∉ new)
    (text : List α) : ¬old <:+: replaceAll old new text := by
  rintro ⟨pre, post, same⟩
  obtain ⟨_, rest, _, outside, _⟩ := read_inside some_ fresh some_ apart same.symm
  exact outside (List.prefix_append old rest)

theorem inside_of_replaceAll (some_ : old ≠ []) (fresh : new ≠ []) (filled : word ≠ [])
    (apart : ∀ c ∈ word, c ∉ new) (inside : word <:+: replaceAll old new text) : word <:+: text := by
  obtain ⟨pre, post, same⟩ := inside
  obtain ⟨front, rest, rfl, _⟩ := read_inside some_ fresh filled apart same.symm
  exact ⟨front, rest, rfl⟩

/-- Where the word shares no character with a front, the front is passed. -/
theorem replaceAll_pass {front : List α} (some_ : old ≠ []) (apart : ∀ c ∈ old, c ∉ front) (text : List α) :
    replaceAll old new (front ++ text) = front ++ replaceAll old new text := by
  induction front with
  | nil => rfl
  | cons c front ih =>
      have other : ¬old <+: c :: (front ++ text) := by
        rintro ⟨back, same⟩
        obtain ⟨d, rest, rfl⟩ := List.exists_cons_of_ne_nil some_
        obtain ⟨rfl, -⟩ := List.cons.inj same
        exact apart d List.mem_cons_self List.mem_cons_self
      rw [List.cons_append, replaceAll_miss other,
        ih fun d mem inFront => apart d mem (List.mem_cons_of_mem _ inFront), List.cons_append]

end Replace

/-- The second text is the first with some of the words listed replaced. -/
inductive Masked {α : Type*} (listed : List α → Prop) (new : List α) : List α → List α → Prop
  | nil : Masked listed new [] []
  | keep {text text' : List α} (c : α) (rest : Masked listed new text text') :
      Masked listed new (c :: text) (c :: text')
  | mask {text text' : List α} (word : List α) (mem : listed word) (rest : Masked listed new text text') :
      Masked listed new (word ++ text) (new ++ text')

section Masked
variable {α : Type*} {listed : List α → Prop} {old new word text text' rest : List α}

theorem Masked.refl (text : List α) : Masked listed new text text := by
  induction text with
  | nil => exact .nil
  | cons c text ih => exact .keep c ih

/-- What shares no character with the replacement was kept. -/
theorem Masked.read (masked : Masked listed new text (word ++ rest)) (fresh : new ≠ [])
    (apart : ∀ c ∈ word, c ∉ new) : ∃ back, text = word ++ back ∧ Masked listed new back rest := by
  induction word generalizing text with
  | nil => exact ⟨text, rfl, masked⟩
  | cons c word ih =>
      generalize whole : c :: word ++ rest = text' at masked
      cases masked with
      | nil => cases whole
      | keep d kept =>
          obtain ⟨rfl, rfl⟩ := List.cons.inj whole
          obtain ⟨back, rfl, after⟩ := ih kept fun c mem => apart c (List.mem_cons_of_mem _ mem)
          exact ⟨back, rfl, after⟩
      | mask _ _ _ =>
          obtain ⟨d, new, rfl⟩ := List.exists_cons_of_ne_nil fresh
          obtain ⟨rfl, -⟩ := List.cons.inj whole
          exact absurd List.mem_cons_self (apart c List.mem_cons_self)

/-- Replacing one more of the words keeps the relation to the first text. -/
theorem Masked.replaced [DecidableEq α] (masked : Masked listed new text text') (mem : listed old)
    (some_ : old ≠ []) (fresh : new ≠ []) (apart : ∀ c ∈ old, c ∉ new) :
    Masked listed new text (replaceAll old new text') := by
  induction size : text'.length using Nat.strong_induction_on generalizing text text' with
  | _ n ih =>
      cases masked with
      | nil => exact .nil
      | @keep text text' c kept =>
          by_cases here : old <+: c :: text'
          · obtain ⟨back, same⟩ := here
            have pos := List.length_pos_iff.mpr some_
            have sum := congrArg List.length same
            rw [List.length_append] at sum
            obtain ⟨front, whole, after⟩ := (same.symm ▸ kept.keep c).read fresh apart
            rw [← same, whole, replaceAll_hit some_]
            exact (ih _ (by omega) after rfl).mask old mem
          · rw [replaceAll_miss here]
            exact (ih _ (by rw [← size]; exact Nat.lt_succ_self _) kept rfl).keep c
      | @mask text text' word listed_ kept =>
          have pos := List.length_pos_iff.mpr fresh
          rw [List.length_append] at size
          rw [replaceAll_pass some_ apart]
          exact (ih _ (by omega) kept rfl).mask word listed_

end Masked

end HuluLandlord.Replace
