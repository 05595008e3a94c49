import HuluLandlord.Replace
import Mathlib.Data.List.TakeWhile
import Mathlib.Tactic

/-!
The filter for sensitive words. The content is split into characters by its lead bytes; windows of
up to fifteen characters are looked up, and where the content is wanted the words found are replaced.
-/
namespace HuluLandlord.SensitiveWords
open Replace

/-- `[\128-\191]`. -/
def isTail (byte : UInt8) : Bool := 128 ≤ byte ∧ byte ≤ 191

/-- What `string.gmatch(content, ".[\128-\191]*")` runs through. -/
def characters : List UInt8 → List (List UInt8)
  | [] => []
  | byte :: content => (byte :: content.takeWhile isTail) :: characters (content.dropWhile isTail)
termination_by content => content.length
decreasing_by exact Nat.lt_succ_of_le (List.length_dropWhile_le _ _)

/-- `#(string.gsub(content, "[\128-\191]", ""))`. -/
def characterCount (content : List UInt8) : Nat := (content.filter fun byte => !isTail byte).length

section Characters
variable {content front back word : List UInt8} {words : List (List UInt8)} {byte : UInt8}

/-- A text that does not begin in the middle of a character. -/
def Lead (content : List UInt8) : Prop := ∀ byte ∈ content.head?, isTail byte = false

/-- One byte and the tail bytes after it. -/
def IsCharacter (word : List UInt8) : Prop := ∃ byte tails, word = byte :: tails ∧ ∀ tail ∈ tails, isTail tail

/-- Characters of a text: none but the first begins with a tail byte. -/
structure Characters (words : List (List UInt8)) : Prop where
  each : ∀ word ∈ words, IsCharacter word
  lead : ∀ word ∈ words.tail, Lead word

theorem lead_cons : Lead (byte :: content) ↔ isTail byte = false := by
  simp [Lead]

theorem lead_dropWhile (content : List UInt8) : Lead (content.dropWhile isTail) := by
  intro byte head
  simpa [Option.mem_def.mp head] using List.head?_dropWhile_not isTail content

theorem flatten_characters (content : List UInt8) : (characters content).flatten = content := by
  induction content using characters.induct with
  | case1 => rw [characters, List.flatten_nil]
  | case2 byte content ih =>
      rw [characters, List.flatten_cons, ih, List.cons_append, List.takeWhile_append_dropWhile]

theorem isCharacter_of_mem (mem : word ∈ characters content) : IsCharacter word := by
  induction content using characters.induct with
  | case1 => rw [characters] at mem; cases mem
  | case2 byte content ih =>
      rw [characters] at mem
      obtain rfl | rest := List.mem_cons.mp mem
      · exact ⟨byte, _, rfl, fun tail inside => List.mem_takeWhile_imp inside⟩
      · exact ih rest

theorem lead_of_mem (lead : Lead content) (mem : word ∈ characters content) : Lead word := by
  induction content using characters.induct with
  | case1 => rw [characters] at mem; cases mem
  | case2 byte content ih =>
      rw [characters] at mem
      obtain rfl | rest := List.mem_cons.mp mem
      · exact lead_cons.mpr (lead_cons.mp lead)
      · exact ih (lead_dropWhile content) rest

theorem characters_spec (content : List UInt8) : Characters (characters content) where
  each _ mem := isCharacter_of_mem mem
  lead word mem := by
    cases content with
    | nil => rw [characters] at mem; cases mem
    | cons byte content =>
        rw [characters] at mem
        exact lead_of_mem (lead_dropWhile content) mem

theorem characterCount_eq (lead : Lead content) : characterCount content = (characters content).length := by
  induction content using characters.induct with
  | case1 => rw [characters]; rfl
  | case2 byte content ih =>
      have tails : (content.takeWhile isTail).filter (fun byte => !isTail byte) = [] :=
        List.filter_eq_nil_iff.mpr fun tail mem => by simp [List.mem_takeWhile_imp mem]
      have rest := ih (lead_dropWhile content)
      rw [characterCount] at rest ⊢
      rw [characters, List.length_cons, ← rest, List.filter_cons_of_pos (by simp [lead_cons.mp lead])]
      conv_lhs => rw [← List.takeWhile_append_dropWhile (p := isTail) (l := content), List.filter_append, tails]
      rfl

theorem lead_flatten (each : ∀ word ∈ words, IsCharacter word) (lead : ∀ word ∈ words, Lead word) :
    Lead words.flatten := by
  cases words with
  | nil => exact fun _ head => absurd head (Option.not_mem_none _)
  | cons word words =>
      obtain ⟨byte, tails, rfl, -⟩ := each word List.mem_cons_self
      exact lead_cons.mpr (lead_cons.mp (lead _ List.mem_cons_self))

/-- Characters put together are found again. -/
theorem Characters.characters_flatten (spec : Characters words) : characters words.flatten = words := by
  induction words with
  | nil => rw [List.flatten_nil, characters]
  | cons word words ih =>
      obtain ⟨byte, tails, rfl, tail⟩ := spec.each word List.mem_cons_self
      have each := fun other mem => spec.each other (List.mem_cons_of_mem _ mem)
      have next := lead_flatten each spec.lead
      have taken : (tails ++ words.flatten).takeWhile isTail = tails ∧
          (tails ++ words.flatten).dropWhile isTail = words.flatten := by
        rw [List.takeWhile_append_of_pos tail, List.dropWhile_append_of_pos tail]
        cases rest : words.flatten with
        | nil => exact ⟨List.append_nil _, rfl⟩
        | cons byte rest =>
            have first := lead_cons.mp (rest ▸ next)
            simp [first]
      rw [List.flatten_cons, List.cons_append, characters, taken.1, taken.2,
        ih ⟨each, fun other mem => spec.lead other (List.mem_of_mem_tail mem)⟩]

theorem Characters.part (spec : Characters words) {part : List (List UInt8)} (inside : part <:+: words) :
    Characters part where
  each word mem := spec.each word (inside.subset mem)
  lead word mem := by
    obtain ⟨front, back, rfl⟩ := inside
    cases front with
    | nil =>
        cases part with
        | nil => cases mem
        | cons first part => exact spec.lead word (List.mem_append_left back mem)
    | cons first front =>
        exact spec.lead word (List.mem_append_left back (List.mem_append_right front (List.mem_of_mem_tail mem)))

theorem characters_append (lead : Lead back) :
    characters (front ++ back) = characters front ++ characters back := by
  have spec : Characters (characters front ++ characters back) := by
    refine ⟨fun word mem => (List.mem_append.mp mem).elim isCharacter_of_mem isCharacter_of_mem, fun word mem => ?_⟩
    cases first : characters front with
    | nil => exact lead_of_mem lead (List.mem_of_mem_tail (by rwa [first] at mem))
    | cons other rest =>
        rw [first] at mem
        obtain here | there := List.mem_append.mp mem
        · exact (characters_spec front).lead word (by rwa [first])
        · exact lead_of_mem lead there
  have found := spec.characters_flatten
  rwa [List.flatten_append, flatten_characters, flatten_characters] at found

end Characters

/-- The characters from `i` to `j`, put together. -/
def findWord (wordTable : List (List UInt8)) (i j : Nat) : List UInt8 :=
  ((wordTable.drop (i - 1)).take (j + 1 - i)).flatten

/-- Past fifteen characters or the end, the next window begins one further. -/
def limit (length i d : Nat) : Nat × Nat :=
  if 15 ≤ d ∨ length < i + d then (i + 1, 0) else (i, d)

section Scan
variable (cfg_sensitive_word : List UInt8 → Bool) (wordlist : List (List UInt8)) (length : Nat)
  (onlyKnowHas : Bool)

/-- After a word the next window begins behind it. `j` is written `i + d`. -/
def nextWindow (i d : Nat) : Nat × Nat :=
  if cfg_sensitive_word (findWord wordlist i (i + d)) then limit length (i + d + 1) 0
  else limit length i (d + 1)

theorem nextWindow_cases (i d : Nat) :
    cfg_sensitive_word (findWord wordlist i (i + d)) = true ∧
        (nextWindow cfg_sensitive_word wordlist length i d = (i + d + 1, 0) ∧ i + d < length ∨
          nextWindow cfg_sensitive_word wordlist length i d = (i + d + 2, 0) ∧ length ≤ i + d) ∨
      ¬cfg_sensitive_word (findWord wordlist i (i + d)) = true ∧
        (nextWindow cfg_sensitive_word wordlist length i d = (i + 1, 0) ∧ (14 ≤ d ∨ length ≤ i + d) ∨
          nextWindow cfg_sensitive_word wordlist length i d = (i, d + 1) ∧ d < 14 ∧ i + d < length) := by
  rw [nextWindow]
  split
  · rename_i hit
    refine .inl ⟨hit, ?_⟩
    rw [limit]
    split
    · exact .inr ⟨rfl, by omega⟩
    · exact .inl ⟨rfl, by omega⟩
  · rename_i missed
    refine .inr ⟨missed, ?_⟩
    rw [limit]
    split
    · exact .inl ⟨rfl, by omega⟩
    · exact .inr ⟨rfl, by omega, by omega⟩

theorem nextWindow_forward {i d : Nat} (inside : (nextWindow cfg_sensitive_word wordlist length i d).1 ≤ length) :
    length - (nextWindow cfg_sensitive_word wordlist length i d).1 < length - i ∨
      (nextWindow cfg_sensitive_word wordlist length i d).1 = i ∧
        15 - (nextWindow cfg_sensitive_word wordlist length i d).2 < 15 - d := by
  obtain ⟨-, next | next⟩ | ⟨-, next | next⟩ := nextWindow_cases cfg_sensitive_word wordlist length i d
  all_goals
    rw [next.1] at inside ⊢
    dsimp only at inside ⊢
    omega

/-- `table.insert(replaceList, v)` where `v` is listed. -/
def noted (replaceList : List (List UInt8)) (v : List UInt8) : List (List UInt8) :=
  if cfg_sensitive_word v then replaceList ++ [v] else replaceList

theorem mem_noted {replaceList : List (List UInt8)} {v word : List UInt8} :
    word ∈ noted cfg_sensitive_word replaceList v ↔
      word ∈ replaceList ∨ cfg_sensitive_word v = true ∧ word = v := by
  rw [noted]
  split
  · rename_i listed
    simp [listed]
  · rename_i other
    simp [other]

def check (i d : Nat) (replaceList : List (List UInt8)) : Bool × List (List UInt8) :=
  let v := findWord wordlist i (i + d)
  if cfg_sensitive_word v && onlyKnowHas then (true, replaceList)
  else
    let next := nextWindow cfg_sensitive_word wordlist length i d
    if next.1 ≤ length then check next.1 next.2 (noted cfg_sensitive_word replaceList v)
    else (false, noted cfg_sensitive_word replaceList v)
termination_by (length - i, 15 - d)
decreasing_by
  rename_i inside
  exact (nextWindow_forward _ _ _ inside).elim (Prod.Lex.left _ _) fun same => by
    rw [same.1]
    exact Prod.Lex.right _ same.2

/-- The window of `e + 1` characters from `a` on has not been passed. -/
def Ahead (i d a e : Nat) : Prop := i < a ∨ i = a ∧ d ≤ e

variable {cfg_sensitive_word wordlist length onlyKnowHas} {i d a e : Nat} {word : List UInt8}
  {replaceList : List (List UInt8)}

/-- The windows looked up do not pass the end. -/
theorem nextWindow_within (first : 1 ≤ i)
    (inside : (nextWindow cfg_sensitive_word wordlist length i d).1 ≤ length) :
    1 ≤ (nextWindow cfg_sensitive_word wordlist length i d).1 ∧
      (nextWindow cfg_sensitive_word wordlist length i d).1 +
        (nextWindow cfg_sensitive_word wordlist length i d).2 ≤ length := by
  obtain ⟨-, next | next⟩ | ⟨-, next | next⟩ := nextWindow_cases cfg_sensitive_word wordlist length i d
  all_goals
    rw [next.1] at inside ⊢
    dsimp only at inside ⊢
    omega

/-- A window ahead stays ahead, unless a word was found that it overlaps. -/
theorem nextWindow_ahead (ahead : Ahead i d a e) (within : a + e ≤ length) (short : e < 15)
    (listed : cfg_sensitive_word (findWord wordlist a (a + e)) = true)
    (past : cfg_sensitive_word (findWord wordlist i (i + d)) = true → i + d < a) :
    (nextWindow cfg_sensitive_word wordlist length i d).1 ≤ length ∧
      Ahead (nextWindow cfg_sensitive_word wordlist length i d).1
        (nextWindow cfg_sensitive_word wordlist length i d).2 a e := by
  rw [Ahead] at ahead ⊢
  obtain ⟨hit, next | next⟩ | ⟨missed, next | next⟩ := nextWindow_cases cfg_sensitive_word wordlist length i d
  · have := past hit
    rw [next.1]
    dsimp only
    omega
  · have := past hit
    omega
  all_goals
    have differ : ¬(i = a ∧ d = e) := by
      rintro ⟨rfl, rfl⟩
      exact missed listed
    rw [next.1]
    dsimp only
    omega

/-- No listed word ahead is passed where one is enough. -/
theorem check_knows (ahead : Ahead i d a e) (within : a + e ≤ length) (short : e < 15)
    (listed : cfg_sensitive_word (findWord wordlist a (a + e)) = true) :
    (check cfg_sensitive_word wordlist length true i d replaceList).1 = true := by
  fun_induction check cfg_sensitive_word wordlist length true i d replaceList with
  | case1 => rfl
  | case2 i d _ v none_ next inside ih =>
      exact ih (nextWindow_ahead ahead within short listed fun hit => by simp [v, hit] at none_).2
  | case3 i d _ v none_ next outside =>
      exact absurd (nextWindow_ahead ahead within short listed fun hit => by simp [v, hit] at none_).1 outside

/-- What was found stays in the list. -/
theorem check_keeps (mem : word ∈ replaceList) :
    word ∈ (check cfg_sensitive_word wordlist length onlyKnowHas i d replaceList).2 := by
  fun_induction check cfg_sensitive_word wordlist length onlyKnowHas i d replaceList with
  | case1 => exact mem
  | case2 i d replaceList v _ next inside ih => exact ih ((mem_noted cfg_sensitive_word).mpr (.inl mem))
  | case3 => exact (mem_noted cfg_sensitive_word).mpr (.inl mem)

/-- Of the windows listed, each is found, or one that overlaps it. -/
theorem check_finds (first : 1 ≤ i) (inside : i + d ≤ length) (ahead : Ahead i d a e) (within : a + e ≤ length)
    (short : e < 15) (listed : cfg_sensitive_word (findWord wordlist a (a + e)) = true) :
    ∃ b f, 1 ≤ b ∧ b + f ≤ length ∧ b ≤ a + e ∧ a ≤ b + f ∧
      findWord wordlist b (b + f) ∈ (check cfg_sensitive_word wordlist length false i d replaceList).2 := by
  fun_induction check cfg_sensitive_word wordlist length false i d replaceList with
  | case1 i d replaceList v hit => simp at hit
  | case2 i d replaceList v _ next on ih =>
      by_cases overlap : cfg_sensitive_word v = true ∧ a ≤ i + d
      · rw [Ahead] at ahead
        exact ⟨i, d, first, inside, by omega, overlap.2,
          check_keeps ((mem_noted cfg_sensitive_word).mpr (.inr ⟨overlap.1, rfl⟩))⟩
      · obtain ⟨first, inside⟩ := nextWindow_within first on
        exact ih first inside (nextWindow_ahead ahead within short listed fun hit =>
          Nat.lt_of_not_le fun le => overlap ⟨hit, le⟩).2
  | case3 i d replaceList v _ next outside =>
      by_cases overlap : cfg_sensitive_word v = true ∧ a ≤ i + d
      · rw [Ahead] at ahead
        exact ⟨i, d, first, inside, by omega, overlap.2, (mem_noted cfg_sensitive_word).mpr (.inr ⟨overlap.1, rfl⟩)⟩
      · exact absurd (nextWindow_ahead ahead within short listed fun hit =>
          Nat.lt_of_not_le fun le => overlap ⟨hit, le⟩).1 outside

/-- What is found is listed, and a window of the content. -/
theorem check_mem (mem : word ∈ (check cfg_sensitive_word wordlist length onlyKnowHas i d replaceList).2) :
    word ∈ replaceList ∨ cfg_sensitive_word word = true ∧ ∃ b f, word = findWord wordlist b (b + f) := by
  have last {i d : Nat} {replaceList : List (List UInt8)}
      (mem : word ∈ noted cfg_sensitive_word replaceList (findWord wordlist i (i + d))) :
      word ∈ replaceList ∨ cfg_sensitive_word word = true ∧ ∃ b f, word = findWord wordlist b (b + f) := by
    obtain before | ⟨listed, rfl⟩ := (mem_noted cfg_sensitive_word).mp mem
    · exact .inl before
    · exact .inr ⟨listed, i, d, rfl⟩
  fun_induction check cfg_sensitive_word wordlist length onlyKnowHas i d replaceList with
  | case1 => exact .inl mem
  | case2 i d replaceList v _ next inside ih => exact (ih mem).elim last .inr
  | case3 => exact last mem

theorem check_true (found : (check cfg_sensitive_word wordlist length onlyKnowHas i d replaceList).1 = true) :
    onlyKnowHas = true ∧ ∃ b f, cfg_sensitive_word (findWord wordlist b (b + f)) = true := by
  fun_induction check cfg_sensitive_word wordlist length onlyKnowHas i d replaceList with
  | case1 i d replaceList v hit =>
      obtain ⟨listed, know⟩ := Bool.and_eq_true_iff.mp hit
      exact ⟨know, i, d, listed⟩
  | case2 i d replaceList v _ next inside ih => exact ih found
  | case3 => cases found

end Scan

/-- Contiguous characters of the content are the word. -/
def Occurs (word content : List UInt8) : Prop := characters word <:+: characters content

/-- They come after the first `n` characters. -/
def StandsAt (content : List UInt8) (n : Nat) (word : List UInt8) : Prop :=
  characters word <+: (characters content).drop n

section Windows
variable {content word : List UInt8} {i e : Nat}

theorem findWord_part (wordTable : List (List UInt8)) (i j : Nat) :
    (wordTable.drop (i - 1)).take (j + 1 - i) <:+: wordTable :=
  (List.take_prefix _ _).isInfix.trans (List.drop_suffix _ _).isInfix

theorem characters_findWord (content : List UInt8) (i j : Nat) :
    characters (findWord (characters content) i j) = ((characters content).drop (i - 1)).take (j + 1 - i) :=
  ((characters_spec content).part (findWord_part _ i j)).characters_flatten

theorem occurs_findWord (content : List UInt8) (i j : Nat) : Occurs (findWord (characters content) i j) content := by
  rw [Occurs, characters_findWord]
  exact findWord_part _ i j

theorem occurs_iff : Occurs word content ↔ ∃ n, StandsAt content n word := by
  constructor
  · rintro ⟨front, back, same⟩
    refine ⟨front.length, ?_⟩
    rw [StandsAt, ← same, List.append_assoc, List.drop_left]
    exact List.prefix_append _ _
  · rintro ⟨n, stands⟩
    exact stands.isInfix.trans (List.drop_suffix n _).isInfix

theorem standsAt_findWord (first : 1 ≤ i) (inside : i + e ≤ (characters content).length) :
    StandsAt content (i - 1) (findWord (characters content) i (i + e)) ∧
      (characters (findWord (characters content) i (i + e))).length = e + 1 := by
  rw [StandsAt, characters_findWord, show i + e + 1 - i = e + 1 by omega]
  refine ⟨List.take_prefix _ _, ?_⟩
  rw [List.length_take, List.length_drop]
  omega

/-- A word stands in the window of its characters. -/
theorem findWord_standsAt (some_ : word ≠ []) (stands : StandsAt content i word) :
    0 < (characters word).length ∧ i + (characters word).length ≤ (characters content).length ∧
      findWord (characters content) (i + 1) (i + (characters word).length) = word := by
  have pos : 0 < (characters word).length := by
    refine List.length_pos_iff.mpr fun none_ => some_ ?_
    rw [← flatten_characters word, none_, List.flatten_nil]
  have size := stands.length_le
  rw [List.length_drop] at size
  refine ⟨pos, by omega, ?_⟩
  rw [findWord, Nat.add_sub_cancel, show i + (characters word).length + 1 - (i + 1) = (characters word).length by omega,
    ← List.prefix_iff_eq_take.mp stands, flatten_characters]

end Windows

/-- `( ) . % + - * ? [ ^ $`. -/
def specialBytes : List UInt8 := [40, 41, 46, 37, 43, 45, 42, 63, 91, 94, 36]

def specialChar (v : List UInt8) : Bool := v ∈ specialBytes.map fun byte => [byte]

def checkSpecialChar (msg : List UInt8) : List UInt8 :=
  (characters msg).flatMap fun v => if specialChar v then 37 :: v else v

/-- The text a Lua pattern stands for where each of its magic bytes is escaped. -/
def literal : List UInt8 → Option (List UInt8)
  | [] => some []
  | 37 :: byte :: pattern => if byte ∈ specialBytes then (literal pattern).map (byte :: ·) else none
  | byte :: pattern => if byte ∈ specialBytes then none else (literal pattern).map (byte :: ·)

/-- `'***'`. -/
def stars : List UInt8 := [42, 42, 42]

/-- `string.gsub` with a pattern that stands for one text; other patterns are left out. -/
def gsub (content pattern repl : List UInt8) : Option (List UInt8) :=
  (literal pattern).map fun old => replaceAll old repl content

/-- The filter returns whether a word was found, or a content. -/
inductive Answer where
  | flag (has : Bool)
  | text (content : List UInt8)
  deriving DecidableEq, Repr

section Filter
variable (cfg_sensitive_word : List UInt8 → Bool)

/-- The words the scan of the content finds. -/
def replaceList (content : List UInt8) : List (List UInt8) :=
  (check cfg_sensitive_word (characters content) (characterCount content) false 1 0 []).2

/-- `onlyKnowHas` stands for `onlyKnowHas == KNOW_TYPE`. -/
def filterSensitiveWords (content : List UInt8) (onlyKnowHas : Bool) : Option Answer :=
  if content = [] then some (.text [])
  else
    let checked := check cfg_sensitive_word (characters content) (characterCount content) onlyKnowHas 1 0 []
    if checked.1 then some (.flag true)
    else if onlyKnowHas then some (.flag false)
    else (checked.2.foldlM (fun content v => gsub content (checkSpecialChar v) stars) content).map .text

/-- The words are written in at most fifteen characters. -/
structure Words : Prop where
  some_ : ∀ word, cfg_sensitive_word word = true → word ≠ []
  short : ∀ word, cfg_sensitive_word word = true → (characters word).length ≤ 15

/-- A byte of one-byte characters is not followed by a tail byte, and the text begins with a character. -/
structure Utf8 (word : List UInt8) : Prop where
  lead : Lead word
  ascii : ∀ character ∈ characters word, ∀ byte ∈ character.head?, byte < 128 → character = [byte]

end Filter

section Literal
variable {word pattern rest : List UInt8} {words : List (List UInt8)}

theorem specialBytes_ascii {byte : UInt8} (special : byte ∈ specialBytes) : byte < 128 ∧ isTail byte = false := by
  have all : specialBytes.all (fun byte => byte < 128 && !isTail byte) = true := by decide
  have here := List.all_eq_true.mp all byte special
  rw [Bool.and_eq_true, decide_eq_true_iff, Bool.not_eq_true'] at here
  exact here

theorem literal_escaped {byte : UInt8} (special : byte ∈ specialBytes) (pattern : List UInt8) :
    literal (37 :: byte :: pattern) = (literal pattern).map (byte :: ·) := by
  rw [literal, if_pos special]

theorem literal_plain {byte : UInt8} (plain : byte ∉ specialBytes) (pattern : List UInt8) :
    literal (byte :: pattern) = (literal pattern).map (byte :: ·) := by
  have differ : byte ≠ 37 := by
    rintro rfl
    exact plain (by decide)
  rw [literal, if_neg plain]
  rintro b p rfl
  exact absurd rfl differ

theorem literal_append (plain : ∀ byte ∈ word, byte ∉ specialBytes) (found : literal pattern = some rest) :
    literal (word ++ pattern) = some (word ++ rest) := by
  induction word with
  | nil => exact found
  | cons byte word ih =>
      rw [List.cons_append, literal_plain (plain byte List.mem_cons_self),
        ih fun byte mem => plain byte (List.mem_cons_of_mem _ mem)]
      rfl

theorem specialChar_iff : specialChar word = true ↔ ∃ byte ∈ specialBytes, word = [byte] := by
  rw [specialChar, decide_eq_true_iff, List.mem_map]
  exact exists_congr fun byte => and_congr_right fun _ => eq_comm

/-- The escapes make a pattern of the word itself. -/
theorem literal_checkSpecialChar (utf8 : Utf8 word) : literal (checkSpecialChar word) = some word := by
  have escaped : ∀ words : List (List UInt8), (∀ character ∈ words, IsCharacter character) →
      (∀ character ∈ words, ∀ byte ∈ character.head?, byte < 128 → character = [byte]) →
      literal (words.flatMap fun v => if specialChar v then 37 :: v else v) = some words.flatten := by
    intro words each ascii
    induction words with
    | nil => rfl
    | cons v words ih =>
        have rest := ih (fun character mem => each character (List.mem_cons_of_mem _ mem))
          fun character mem => ascii character (List.mem_cons_of_mem _ mem)
        rw [List.flatMap_cons, List.flatten_cons]
        split
        · rename_i special
          obtain ⟨byte, mem, rfl⟩ := specialChar_iff.mp special
          rw [List.cons_append, List.singleton_append, literal_escaped mem, rest]
          rfl
        · rename_i plain
          refine literal_append ?_ rest
          obtain ⟨byte, tails, rfl, tail⟩ := each v List.mem_cons_self
          have alone := ascii _ List.mem_cons_self byte rfl
          intro other mem special
          obtain rfl | inside := List.mem_cons.mp mem
          · exact plain (specialChar_iff.mpr ⟨other, special, alone (specialBytes_ascii special).1⟩)
          · exact absurd (tail other inside) (by rw [(specialBytes_ascii special).2]; exact Bool.false_ne_true)
  rw [checkSpecialChar, escaped _ (fun _ mem => isCharacter_of_mem mem) utf8.ascii, flatten_characters]

theorem gsub_checkSpecialChar (utf8 : Utf8 word) (content : List UInt8) :
    gsub content (checkSpecialChar word) stars = some (replaceAll word stars content) := by
  rw [gsub, literal_checkSpecialChar utf8]
  rfl

/-- The words found are replaced one after the other. -/
theorem foldlM_gsub (utf8 : ∀ word ∈ words, Utf8 word) (content : List UInt8) :
    words.foldlM (fun content v => gsub content (checkSpecialChar v) stars) content =
      some (words.foldl (fun content v => replaceAll v stars content) content) := by
  induction words generalizing content with
  | nil => rfl
  | cons word words ih =>
      rw [List.foldlM_cons, gsub_checkSpecialChar (utf8 word List.mem_cons_self), List.foldl_cons]
      exact ih (fun other mem => utf8 other (List.mem_cons_of_mem _ mem)) _

end Literal

section Know
variable {cfg_sensitive_word : List UInt8 → Bool} {content word : List UInt8}

/-- A listed word of the content is a window that the scan can look up. -/
theorem standsAt_window {n : Nat} (words : Words cfg_sensitive_word) (lead : Lead content)
    (listed : cfg_sensitive_word word = true) (stands : StandsAt content n word) :
    ∃ e, e < 15 ∧ (characters word).length = e + 1 ∧ n + 1 + e ≤ characterCount content ∧
      findWord (characters content) (n + 1) (n + 1 + e) = word := by
  obtain ⟨pos, inside, found⟩ := findWord_standsAt (words.some_ word listed) stands
  have short := words.short word listed
  rw [characterCount_eq lead]
  refine ⟨(characters word).length - 1, by omega, by omega, by omega, ?_⟩
  rwa [show n + 1 + ((characters word).length - 1) = n + (characters word).length by omega]

/-- True is told of a listed word only. -/
theorem know_sound (told : filterSensitiveWords cfg_sensitive_word content true = some (.flag true)) :
    ∃ word, cfg_sensitive_word word = true ∧ Occurs word content := by
  simp only [filterSensitiveWords] at told
  split at told
  · cases told
  split at told
  · rename_i found
    obtain ⟨-, b, f, listed⟩ := check_true found
    exact ⟨_, listed, occurs_findWord content b (b + f)⟩
  · cases told

theorem know_complete (words : Words cfg_sensitive_word) (lead : Lead content)
    (listed : cfg_sensitive_word word = true) (occurs : Occurs word content) :
    filterSensitiveWords cfg_sensitive_word content true = some (.flag true) := by
  obtain ⟨n, stands⟩ := occurs_iff.mp occurs
  obtain ⟨e, short, -, within, rfl⟩ := standsAt_window words lead listed stands
  have some_ : content ≠ [] := by
    rintro rfl
    rw [show characterCount [] = 0 from rfl] at within
    omega
  have ahead : Ahead 1 0 (n + 1) e := by
    rw [Ahead]
    omega
  simp only [filterSensitiveWords]
  rw [if_neg some_, if_pos (check_knows ahead within short listed)]

end Know

section Replacing
variable {cfg_sensitive_word : List UInt8 → Bool} {content word old : List UInt8} {words : List (List UInt8)}

theorem stars_apart (free : 42 ∉ word) : ∀ byte ∈ word, byte ∉ stars := by
  intro byte mem star
  have same : byte = 42 := by simpa [stars] using star
  exact free (same ▸ mem)

/-- A word without stars was there before. -/
theorem inside_of_foldl (some_ : ∀ old ∈ words, old ≠ []) (filled : word ≠ []) (free : 42 ∉ word) :
    word <:+: words.foldl (fun content v => replaceAll v stars content) content → word <:+: content := by
  refine List.foldlRecOn words _ (motive := fun text => word <:+: text → word <:+: content) id ?_
  intro text before old mem inside
  exact before (inside_of_replaceAll (some_ old mem) (by decide) filled (stars_apart free) inside)

theorem foldl_absent (some_ : ∀ old ∈ words, old ≠ []) (mem : word ∈ words) (free : 42 ∉ word) :
    ¬word <:+: words.foldl (fun content v => replaceAll v stars content) content := by
  induction words generalizing content with
  | nil => cases mem
  | cons old words ih =>
      have others := fun other mem => some_ other (List.mem_cons_of_mem old mem)
      obtain rfl | rest := List.mem_cons.mp mem
      · intro inside
        have filled := some_ word List.mem_cons_self
        exact replaceAll_absent filled (by decide) (stars_apart free) content
          (inside_of_foldl others filled free inside)
      · exact ih others rest

theorem masked_foldl {listed : List UInt8 → Prop} (some_ : ∀ old ∈ words, old ≠ [])
    (mem : ∀ old ∈ words, listed old) (free : ∀ old ∈ words, 42 ∉ old) :
    Masked listed stars content (words.foldl (fun content v => replaceAll v stars content) content) := by
  refine List.foldlRecOn words _ (Masked.refl content) ?_
  intro text masked old inside
  exact masked.replaced (mem old inside) (some_ old inside) (by decide) (stars_apart (free old inside))

theorem lead_append {front back : List UInt8} (some_ : front ≠ []) (lead : Lead front) : Lead (front ++ back) := by
  obtain ⟨byte, rest, rfl⟩ := List.exists_cons_of_ne_nil some_
  exact lead_cons.mpr (lead_cons.mp lead)

/-- What follows an occurrence begins with a character. -/
theorem Occurs.split (occurs : Occurs word content) (some_ : word ≠ []) :
    ∃ front back, content = front ++ word ++ back ∧ Lead back := by
  obtain ⟨front, back, same⟩ := occurs
  have spec := same ▸ characters_spec content
  refine ⟨front.flatten, back.flatten, ?_, ?_⟩
  · rw [← flatten_characters content, ← same, List.flatten_append, List.flatten_append, flatten_characters]
  · refine lead_flatten (fun other mem => spec.each other (List.mem_append_right _ mem)) fun other mem => ?_
    have filled : front ++ characters word ≠ [] := by
      intro none_
      refine some_ ?_
      rw [← flatten_characters word, (List.append_eq_nil_iff.mp none_).2, List.flatten_nil]
    obtain ⟨first, rest, whole⟩ := List.exists_cons_of_ne_nil filled
    refine spec.lead other ?_
    rw [whole]
    exact List.mem_append_right rest mem

theorem occurs_append {front back : List UInt8} (some_ : word ≠ []) (lead : Lead word) (next : Lead back) :
    Occurs word (front ++ word ++ back) := by
  rw [Occurs, List.append_assoc, characters_append (lead_append some_ lead), characters_append next]
  exact ⟨characters front, characters back, List.append_assoc _ _ _⟩

/-- As characters, too, a word without stars was there before. -/
theorem occurs_of_replaceAll (filled : word ≠ []) (free : 42 ∉ word) (lead : Lead word) (some_ : old ≠ [])
    (leads : Lead old) (occurs : Occurs word (replaceAll old stars content)) : Occurs word content := by
  obtain ⟨front, back, same, next⟩ := occurs.split filled
  obtain ⟨before, rest, rfl, -, after⟩ := read_inside some_ (by decide) filled (stars_apart free) same
  refine occurs_append filled lead ?_
  cases rest with
  | nil => exact fun _ head => absurd head (Option.not_mem_none _)
  | cons byte rest =>
      by_cases here : old <+: byte :: rest
      · obtain ⟨more, whole⟩ := here
        rw [← whole]
        exact lead_append some_ leads
      · rw [replaceAll_miss here] at after
        exact lead_cons.mpr (lead_cons.mp (after.symm ▸ next))

theorem occurs_of_foldl (some_ : ∀ old ∈ words, old ≠ []) (leads : ∀ old ∈ words, Lead old) (filled : word ≠ [])
    (free : 42 ∉ word) (lead : Lead word) :
    Occurs word (words.foldl (fun content v => replaceAll v stars content) content) → Occurs word content := by
  refine List.foldlRecOn words _ (motive := fun text => Occurs word text → Occurs word content) id ?_
  intro text before old mem occurs
  exact before (occurs_of_replaceAll filled free lead (some_ old mem) (leads old mem) occurs)

end Replacing

section Result
variable (cfg_sensitive_word : List UInt8 → Bool) (content : List UInt8)

/-- Two words share a character of the content. -/
def Overlap (n : Nat) (word : List UInt8) (m : Nat) (other : List UInt8) : Prop :=
  n < m + (characters other).length ∧ m < n + (characters word).length

/-- No two different words that are listed share a character. -/
def Apart : Prop := ∀ n word m other, StandsAt content n word → StandsAt content m other →
  cfg_sensitive_word word = true → cfg_sensitive_word other = true → Overlap n word m other → word = other

/-- What becomes of a content. Stars that are put in may complete a listed word that has stars. -/
structure Filtered (result : List UInt8) : Prop where
  unchanged : (∀ word, cfg_sensitive_word word = true → ¬Occurs word content) → result = content
  outside : (∀ word, cfg_sensitive_word word = true → Occurs word content → 42 ∉ word) →
    Masked (fun word => cfg_sensitive_word word = true ∧ Occurs word content) stars content result
  covered : Lead content → ∀ n word, StandsAt content n word → cfg_sensitive_word word = true →
    ∃ m, ∃ found ∈ replaceList cfg_sensitive_word content, StandsAt content m found ∧ Overlap n word m found
  removed : ∀ word ∈ replaceList cfg_sensitive_word content, 42 ∉ word → ¬word <:+: result
  clean : Lead content → Apart cfg_sensitive_word content →
    ∀ word, cfg_sensitive_word word = true → 42 ∉ word → ¬Occurs word result

variable {cfg_sensitive_word content} {word : List UInt8}

theorem replaceList_mem (mem : word ∈ replaceList cfg_sensitive_word content) :
    cfg_sensitive_word word = true ∧ Occurs word content := by
  obtain none_ | ⟨listed, b, f, rfl⟩ := check_mem mem
  · cases none_
  · exact ⟨listed, occurs_findWord content b (b + f)⟩

theorem replaceList_covers (words : Words cfg_sensitive_word) (lead : Lead content) {n : Nat}
    (stands : StandsAt content n word) (listed : cfg_sensitive_word word = true) :
    ∃ m, ∃ found ∈ replaceList cfg_sensitive_word content, StandsAt content m found ∧ Overlap n word m found := by
  obtain ⟨e, short, size, within, same⟩ := standsAt_window words lead listed stands
  have ahead : Ahead 1 0 (n + 1) e := by
    rw [Ahead]
    omega
  obtain ⟨b, f, first, inside, before, behind, mem⟩ :=
    check_finds le_rfl (by omega) ahead within short (same.symm ▸ listed)
  rw [characterCount_eq lead] at inside
  obtain ⟨there, length⟩ := standsAt_findWord first inside
  refine ⟨b - 1, _, mem, there, ?_⟩
  rw [Overlap, size, length]
  omega

theorem replaceList_eq_nil (none_ : ∀ word, cfg_sensitive_word word = true → ¬Occurs word content) :
    replaceList cfg_sensitive_word content = [] :=
  List.eq_nil_iff_forall_not_mem.mpr fun word mem => none_ word (replaceList_mem mem).1 (replaceList_mem mem).2

theorem foldl_filtered (words : Words cfg_sensitive_word)
    (utf8 : ∀ word, cfg_sensitive_word word = true → Utf8 word) :
    Filtered cfg_sensitive_word content
      ((replaceList cfg_sensitive_word content).foldl (fun content v => replaceAll v stars content) content) := by
  have some_ : ∀ word ∈ replaceList cfg_sensitive_word content, word ≠ [] :=
    fun word mem => words.some_ word (replaceList_mem mem).1
  have removed : ∀ word ∈ replaceList cfg_sensitive_word content, 42 ∉ word → ¬word <:+: _ :=
    fun word mem free => @foldl_absent content word _ some_ mem free
  refine ⟨fun none_ => ?_, fun free => ?_, fun lead n word => replaceList_covers words lead, removed, ?_⟩
  · rw [replaceList_eq_nil none_]
    rfl
  · exact masked_foldl some_ (fun word mem => replaceList_mem mem)
      fun word mem => free word (replaceList_mem mem).1 (replaceList_mem mem).2
  · intro lead apart word listed free occurs
    have before := occurs_of_foldl some_ (fun old mem => (utf8 old (replaceList_mem mem).1).lead)
      (words.some_ word listed) free (utf8 word listed).lead occurs
    obtain ⟨n, stands⟩ := occurs_iff.mp before
    obtain ⟨m, found, mem, there, overlap⟩ := replaceList_covers words lead stands listed
    obtain rfl := apart n word m found stands there listed (replaceList_mem mem).1 overlap
    obtain ⟨front, back, same, -⟩ := occurs.split (words.some_ word listed)
    exact removed word mem free ⟨front, back, same.symm⟩

theorem foldl_replaceAll_nil (words : List (List UInt8)) :
    words.foldl (fun content v => replaceAll v stars content) [] = [] := by
  refine List.foldlRecOn words _ (motive := fun text => text = []) rfl ?_
  rintro _ rfl old -
  exact replaceAll_nil old stars

theorem filter_replaces (utf8 : ∀ word, cfg_sensitive_word word = true → Utf8 word) :
    filterSensitiveWords cfg_sensitive_word content false =
      some (.text ((replaceList cfg_sensitive_word content).foldl (fun content v => replaceAll v stars content)
        content)) := by
  simp only [filterSensitiveWords]
  split
  · rename_i empty
    rw [empty, foldl_replaceAll_nil]
  · rw [if_neg fun found => Bool.false_ne_true (check_true found).1, if_neg Bool.false_ne_true, ← replaceList,
      foldlM_gsub fun word mem => utf8 word (replaceList_mem mem).1]
    rfl

/-- In know mode the filter tells of the listed words. Otherwise it puts three stars for each occurrence of the
words it finds, and finds one wherever a listed word stands. -/
theorem filterSensitiveWords_spec (words : Words cfg_sensitive_word) (content : List UInt8) :
    (filterSensitiveWords cfg_sensitive_word content true = some (.flag true) →
      ∃ word, cfg_sensitive_word word = true ∧ Occurs word content) ∧
    (Lead content → (filterSensitiveWords cfg_sensitive_word content true = some (.flag true) ↔
      ∃ word, cfg_sensitive_word word = true ∧ Occurs word content)) ∧
    ((∀ word, cfg_sensitive_word word = true → Utf8 word) →
      ∃ result, filterSensitiveWords cfg_sensitive_word content false = some (.text result) ∧
        Filtered cfg_sensitive_word content result) :=
  ⟨know_sound, fun lead => ⟨know_sound, fun ⟨_, listed, occurs⟩ => know_complete words lead listed occurs⟩,
    fun utf8 => ⟨_, filter_replaces utf8, foldl_filtered words utf8⟩⟩

end Result

theorem oneLetter_characters (byte : UInt8) : characters [byte] = [[byte]] := by
  simp [characters]

theorem oneLetter_words : Words fun word => decide (word = [97]) where
  some_ word listed := by
    rw [of_decide_eq_true listed]
    exact List.cons_ne_nil _ _
  short word listed := by
    rw [of_decide_eq_true listed, oneLetter_characters]
    decide

theorem oneLetter_utf8 (word : List UInt8) (listed : decide (word = [97]) = true) : Utf8 word where
  lead := by
    rw [of_decide_eq_true listed]
    exact lead_cons.mpr (by decide)
  ascii character mem byte head _ := by
    rw [of_decide_eq_true listed, oneLetter_characters] at mem
    obtain rfl := List.mem_singleton.mp mem
    obtain rfl := Option.some.inj head
    rfl

/-- A letter of its own is a listed word. -/
theorem filterSensitiveWords_spec_letter :
    Lead [97] ∧ Words (fun word => decide (word = [97])) ∧
      (filterSensitiveWords (fun word => decide (word = [97])) [97] true = some (.flag true) ↔
        ∃ word, decide (word = [97]) = true ∧ Occurs word [97]) ∧
      ∃ result, filterSensitiveWords (fun word => decide (word = [97])) [97] false = some (.text result) ∧
        Filtered (fun word => decide (word = [97])) [97] result := by
  obtain ⟨-, know, text⟩ := filterSensitiveWords_spec oneLetter_words [97]
  have lead : Lead [97] := lead_cons.mpr (by decide)
  exact ⟨lead, oneLetter_words, know lead, text oneLetter_utf8⟩

/-- A word of one letter becomes three stars. -/
theorem filter_longer : ¬∀ cfg_sensitive_word : List UInt8 → Bool, Words cfg_sensitive_word →
    (∀ word, cfg_sensitive_word word = true → Utf8 word) → ∀ content,
    (filterSensitiveWords cfg_sensitive_word content true = some (.flag true) ↔
      ∃ word, cfg_sensitive_word word = true ∧ Occurs word content) ∧
    ∃ result, filterSensitiveWords cfg_sensitive_word content false = some (.text result) ∧
      (∀ word, cfg_sensitive_word word = true → ¬Occurs word result) ∧
      characterCount result = characterCount content ∧
      Masked (fun word => cfg_sensitive_word word = true ∧ Occurs word content) stars content result := by
  intro all
  obtain ⟨-, result, run, -, same, -⟩ := all _ oneLetter_words oneLetter_utf8 [97]
  have found : replaceList (fun word => decide (word = [97])) [97] = [[97]] := by
    have count : characterCount [97] = 1 := by decide
    rw [replaceList, count, oneLetter_characters, check]
    simp [findWord, noted, nextWindow, limit]
  rw [filter_replaces oneLetter_utf8, found] at run
  obtain rfl := Answer.text.inj (Option.some.inj run)
  exact absurd same (by decide)

end HuluLandlord.SensitiveWords
