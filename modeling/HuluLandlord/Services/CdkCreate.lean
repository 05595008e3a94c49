import HuluLandlord.Services.Cdk
import HuluLandlord.Utils.Share

/-!
The creation of codes. A request adds the row of its batch and then either the one code it
names or as many as it asks for, each made of the number of the turn, the clock and a random
number, both written with 36 characters. The tables are the lists of their rows in the order
they were added; names and times of creation, which nothing reads, are left out.
-/
namespace HuluLandlord.Services
open Share

/-- The digits of `%H%M%m%d%S`, two for each. -/
structure Stamp where
  hour : Fin 100
  minute : Fin 100
  month : Fin 100
  day : Fin 100
  second : Fin 100
  deriving DecidableEq, Repr

def Stamp.digits (s : Stamp) : Nat :=
  (((s.hour.val * 100 + s.minute) * 100 + s.month) * 100 + s.day) * 100 + s.second

/-- What one turn of the loop meets; `math.random(1, 1000)` is one more than `random`. -/
structure Turn where
  stamp : Stamp
  random : Fin 1000
  deriving DecidableEq, Repr

structure CreateArgs where
  type : CDRType
  batchId : Option BatchId
  num : Option Int
  cdkId : Option CdkId
  startAt : Int
  endAt : Int
  channel : Option (List Channel)
  enable : Option Bool
  rewardList : List Agent.Entry
  deriving DecidableEq, Repr

/-- `M.Map`. -/
def Map : List Char :=
  ['A', 'B', 'C', 'D', 'E', 'F', 'G', '0', '1', '2', '3', '7', '8', '9', 'H', 'I', 'J', 'K',
    'L', 'O', 'P', 'Q', 'R', 'S', 'T', 'U', 'V', 'W', 'X', 'Y', 'Z', '4', '5', '6', 'M', 'N']

def digit (mod : Nat) : Char := Map.getD mod 'A'

/-- `math.modf(line / 36)`: the division is one of doubles. -/
def modf36 (line : Nat) : Nat := ⌊Share.div (double line) 36⌋.toNat

/-- The loop of `Get36Num`, which ends after 30 turns at the latest. -/
def num36Loop : Nat → Nat → CdkId → CdkId
  | 0, _, num36 => num36
  | n + 1, line, num36 =>
      let num36 := digit (line % 36) :: num36
      if modf36 line = 0 then num36 else num36Loop n (modf36 line) num36

def Get36Num (num : Nat) : CdkId := num36Loop 30 num []

/-- `tonumber` of the digits of a number: a double where it is no 64-bit integer. -/
def tonumber (n : Nat) : Nat := if n < 2 ^ 63 then n else ⌊double n⌋.toNat

/-- The id made in turn `i`. -/
def makeId (i : Nat) (turn : Turn) : CdkId :=
  Get36Num (tonumber ((100000 + i) * 10 ^ 10 + turn.stamp.digits)) ++
    Get36Num (turn.random + 1)

/-- `string.upper`. -/
def upper (cdkId : CdkId) : CdkId := cdkId.map Char.toUpper

structure CdkDb where
  codes : List (CdkId × CdkData)
  batches : List (BatchId × BatchIdData)
  deriving DecidableEq, Repr

namespace CdkDb

def GetCdkData (db : CdkDb) (cdkId : CdkId) : Option CdkData :=
  (db.codes.find? fun row => row.1 = cdkId).map Prod.snd

def GetBatchIdData (db : CdkDb) (batchId : BatchId) : Option BatchIdData :=
  (db.batches.find? fun row => row.1 = batchId).map Prod.snd

/-- `CheckBatchIdAndUpdate`: the tables with the new batch and its id, or `false`. -/
def CheckBatchIdAndUpdate (db : CdkDb) (args : CreateArgs) : Option (CdkDb × BatchId) :=
  match args.batchId with
  | none => none
  | some batchId =>
      if (db.GetBatchIdData batchId).isSome then none
      else some ({ db with
        batches := db.batches ++
          [(batchId, ⟨args.startAt, args.endAt, args.enable.getD false, none⟩)] }, batchId)

/-- `addData`. -/
def addData (args : CreateArgs) (batchId : BatchId) : CdkData :=
  ⟨args.type, batchId, args.startAt, args.endAt, args.channel, args.rewardList, 0, 0, 0,
    args.enable.getD false⟩

def addCode (db : CdkDb) (cdkId : CdkId) (row : CdkData) : CdkDb :=
  { db with codes := db.codes ++ [(cdkId, row)] }

/-- The loop that makes the codes. -/
def addCodes (db : CdkDb) (row : CdkData) (ids : List CdkId) : CdkDb :=
  ids.foldl (fun db cdkId => db.addCode cdkId row) db

end CdkDb

/-- The id that is given; an empty one is none. -/
def CreateArgs.given (args : CreateArgs) : Option CdkId := args.cdkId.filter (· ≠ [])

def CreateArgs.limit (args : CreateArgs) : Int := args.num.getD 0

/-- The ids of the turns `1..limit`. -/
def CreateArgs.made (args : CreateArgs) (turns : Nat → Turn) : List CdkId :=
  (List.range args.limit.toNat).map fun i => makeId (i + 1) (turns (i + 1))

def CdkDb.CreateCDK (db : CdkDb) (args : CreateArgs) (turns : Nat → Turn) : CdkDb × RetVal :=
  match db.CheckBatchIdAndUpdate args with
  | none => (db, .exists_4)
  | some (db, batchId) =>
      match args.given with
      | some cdkId =>
          if (db.GetCdkData cdkId).isSome then (db, .exists_4)
          else (db.addCode (upper cdkId) (CdkDb.addData args batchId), .succeed_1)
      | none =>
          if args.limit ≤ 0 then (db, .error_3)
          else (db.addCodes (CdkDb.addData args batchId) (args.made turns), .succeed_1)

namespace CdkDb

def ids (db : CdkDb) : List CdkId := db.codes.map Prod.fst

/-- The tables as the requests that redeem codes see them. -/
def state (db : CdkDb) (records : List UserData) (requests : List Request) : CdkState :=
  ⟨db.GetCdkData, db.GetBatchIdData, records, requests⟩

/-- What the request is for. A code is found when a request to redeem it goes on with its row,
under its id in any letter case. -/
structure Creates (db : CdkDb) (args : CreateArgs) (result : CdkDb × RetVal) : Prop where
  failed : result.2 ≠ .succeed_1 → result.1.batches = db.batches ∧ result.1.codes = db.codes
  added : result.2 = .succeed_1 → ∃ new, result.1.codes = db.codes ++ new ∧
    match args.given with
    | some cdkId => new.map Prod.fst = [upper cdkId]
    | none => (new.length : Int) = args.limit
  distinct : result.2 = .succeed_1 → result.1.ids.Nodup
  found : result.2 = .succeed_1 → ∀ new, result.1.codes = db.codes ++ new → ∀ row ∈ new,
    ∀ (reward : RewardArgs) (now : Int) (records : List UserData) (requests : List Request),
      reward.code = upper row.1 →
      (result.1.state records requests).callDb reward now .getCdkData =
        some (result.1.state records requests, .getBatchIdData row.2 now)

/-- The request is refused for its batch, or none of its ids is there, as given or in capitals.
The ids of up to 800718 turns differ by themselves. -/
def Creatable (db : CdkDb) (args : CreateArgs) (turns : Nat → Turn) : Prop :=
  ∀ batchId, args.batchId = some batchId → db.GetBatchIdData batchId = none →
    db.ids.Nodup ∧ match args.given with
      | some cdkId => cdkId ∉ db.ids ∧ upper cdkId ∉ db.ids
      | none => 0 < args.limit ∧ (∀ id ∈ args.made turns, id ∉ db.ids) ∧
          (800718 < args.limit → (args.made turns).Nodup)

end CdkDb

/-- The number that is written. -/
def value (s : CdkId) : Nat := s.foldl (fun n c => n * 36 + Map.idxOf c) 0

section Numerals
variable {line n i j : Nat} {s t : CdkId} {c : Char}

theorem value_foldl (s : CdkId) (n : Nat) :
    s.foldl (fun n c => n * 36 + Map.idxOf c) n = n * 36 ^ s.length + value s := by
  induction s generalizing n with
  | nil => simp [value]
  | cons c s ih =>
      have tail : value (c :: s) = (0 * 36 + Map.idxOf c) * 36 ^ s.length + value s := by
        rw [value, List.foldl_cons, ih]
      rw [List.foldl_cons, ih, tail, List.length_cons]
      ring

theorem value_cons : value (c :: s) = Map.idxOf c * 36 ^ s.length + value s := by
  rw [value, List.foldl_cons, value_foldl, Nat.zero_mul, Nat.zero_add]

theorem value_append : value (s ++ t) = value s * 36 ^ t.length + value t := by
  rw [value, List.foldl_append, ← value, value_foldl]

theorem idxOf_digit (small : n < 36) : Map.idxOf (digit n) = n := by
  interval_cases n
  all_goals decide

theorem toUpper_digit (small : n < 36) : (digit n).toUpper = digit n := by
  interval_cases n
  all_goals decide

/-- Up to 2 ^ 53 the division of doubles has the exact whole part. -/
theorem modf36_eq (small : line ≤ 2 ^ 53) : modf36 line = line / 36 := by
  have split : ((line / 36 * 36 + line % 36 : Nat) : ℚ) = line := by
    rw [Nat.div_add_mod' line 36]
  have rest : ((line % 36 : Nat) : ℚ) ≤ 35 := by
    have := Nat.mod_lt line (show 0 < 36 by decide)
    exact_mod_cast Nat.le_of_lt_succ this
  have least : (0 : ℚ) ≤ (line % 36 : Nat) := Nat.cast_nonneg _
  have bound : (line : ℚ) ≤ 2 ^ 53 := by exact_mod_cast small
  push_cast at split rest least
  have whole : ⌊Share.div (double line) 36⌋ = (line / 36 : Nat) := by
    rw [Share.div, double_natCast small]
    apply floor_double
    · push_cast
      linarith
    · push_cast
      linarith
    · linarith
  rw [modf36, whole, Int.toNat_natCast]

/-- The loop puts the digits of a number in front of what is there. -/
theorem value_loop (small : line ≤ 2 ^ 53) (fits : line < 36 ^ n) (s : CdkId) :
    value (num36Loop n line s) = line * 36 ^ s.length + value s := by
  induction n generalizing line s with
  | zero =>
      have zero : line = 0 := by omega
      simp [num36Loop, zero]
  | succ n ih =>
      have low := Nat.mod_lt line (show 0 < 36 by decide)
      have split := Nat.div_add_mod line 36
      have lower : line / 36 ≤ 2 ^ 53 := (Nat.div_le_self line 36).trans small
      have fewer : line / 36 < 36 ^ n := by
        rw [Nat.div_lt_iff_lt_mul (by decide), ← pow_succ]
        exact fits
      simp only [num36Loop, modf36_eq small]
      by_cases last : line / 36 = 0
      · rw [if_pos last, value_cons, idxOf_digit low]
        congr 2
        omega
      · rw [if_neg last, ih lower fewer, value_cons, idxOf_digit low, List.length_cons, pow_succ]
        calc line / 36 * (36 ^ s.length * 36) + (line % 36 * 36 ^ s.length + value s)
            = (36 * (line / 36) + line % 36) * 36 ^ s.length + value s := by ring
          _ = line * 36 ^ s.length + value s := by rw [split]

theorem value_num36 (small : line ≤ 2 ^ 53) : value (Get36Num line) = line := by
  have fits : line < 36 ^ 30 := lt_of_le_of_lt small (by norm_num)
  rw [Get36Num, value_loop small fits]
  simp [value]

/-- A random number has one digit or two. -/
theorem length_num36 (small : n ≤ 1000) :
    (Get36Num n).length = if n < 36 then 1 else 2 := by
  have first : n ≤ 2 ^ 53 := small.trans (by norm_num)
  have second : n / 36 ≤ 2 ^ 53 := (Nat.div_le_self n 36).trans first
  have ends : n / 36 / 36 = 0 := by omega
  simp only [Get36Num, num36Loop, modf36_eq first, modf36_eq second, ends]
  by_cases one : n < 36
  · have none : n / 36 = 0 := by omega
    simp [one, none]
  · have more : ¬n / 36 = 0 := by omega
    simp [one, more]

theorem upper_loop (kept : upper s = s) (n line : Nat) :
    upper (num36Loop n line s) = num36Loop n line s := by
  induction n generalizing line s with
  | zero => exact kept
  | succ n ih =>
      have low := Nat.mod_lt line (show 0 < 36 by decide)
      have more : upper (digit (line % 36) :: s) = digit (line % 36) :: s := by
        rw [upper, List.map_cons, toUpper_digit low, ← upper, kept]
      simp only [num36Loop]
      split
      · exact more
      · exact ih more _

/-- The ids that are made are in capitals. -/
theorem upper_makeId (i : Nat) (turn : Turn) : upper (makeId i turn) = makeId i turn := by
  rw [makeId, upper, List.map_append, ← upper, ← upper, Get36Num, Get36Num,
    upper_loop rfl, upper_loop rfl]

theorem digits_lt (stamp : Stamp) : stamp.digits < 10 ^ 10 := by
  simp only [Stamp.digits]
  omega

/-- Turns of different numbers make different ids: the numerals of the turn and the clock have
16 decimal digits, so one of them is not another with a digit more. -/
theorem makeId_ne (first : i ≤ 800718) (second : j ≤ 800718) {a b : Turn}
    (same : makeId i a = makeId j b) : i = j := by
  have clockA := digits_lt a.stamp
  have clockB := digits_lt b.stamp
  have randomA := a.random.isLt
  have randomB := b.random.isLt
  have numberA : tonumber ((100000 + i) * 10 ^ 10 + a.stamp.digits) =
      (100000 + i) * 10 ^ 10 + a.stamp.digits := if_pos (by omega)
  have numberB : tonumber ((100000 + j) * 10 ^ 10 + b.stamp.digits) =
      (100000 + j) * 10 ^ 10 + b.stamp.digits := if_pos (by omega)
  have values := congrArg value same
  rw [makeId, makeId, value_append, value_append, numberA, numberB, value_num36 (by omega),
    value_num36 (by omega), value_num36 (by omega), value_num36 (by omega),
    length_num36 (by omega), length_num36 (by omega)] at values
  split at values
  · split at values
    · omega
    · omega
  · split at values
    · omega
    · omega

theorem made_nodup {args : CreateArgs} (few : args.limit ≤ 800718) (turns : Nat → Turn) :
    (args.made turns).Nodup := by
  rw [CreateArgs.made]
  refine List.Nodup.map_on (fun a memA b memB same => ?_) List.nodup_range
  have firstA := List.mem_range.mp memA
  have firstB := List.mem_range.mp memB
  have number := makeId_ne (by omega) (by omega) same
  omega

end Numerals

namespace CdkDb
variable {db db' : CdkDb} {args : CreateArgs} {turns : Nat → Turn} {batchId : BatchId}

theorem toUpper_toUpper (c : Char) : c.toUpper.toUpper = c.toUpper := by
  by_cases lower : 'a'.val ≤ c.val ∧ c.val ≤ 'z'.val
  · have raised : c.toUpper.val = c.val + ('A'.val - 'a'.val) := by
      delta Char.toUpper
      rw [dif_pos lower]
    have capital : ¬('a'.val ≤ c.toUpper.val ∧ c.toUpper.val ≤ 'z'.val) := by
      rw [raised]
      simp only [UInt32.le_iff_toNat_le, UInt32.toNat_add] at lower ⊢
      have shift : ('A'.val - 'a'.val).toNat = 2 ^ 32 - 32 := by decide
      have first : 'a'.val.toNat = 97 := by decide
      have last : 'z'.val.toNat = 122 := by decide
      omega
    exact dif_neg capital
  · have same : c.toUpper = c := dif_neg lower
    rw [same, same]

theorem getCdkData_isSome (db : CdkDb) (cdkId : CdkId) :
    (db.GetCdkData cdkId).isSome ↔ cdkId ∈ db.ids := by
  simp [GetCdkData, ids]

/-- Where no two rows have one id, each row is found under its own. -/
theorem getCdkData_of_mem (distinct : db.ids.Nodup) {row : CdkId × CdkData}
    (mem : row ∈ db.codes) : db.GetCdkData row.1 = some row.2 := by
  have some : (db.codes.find? fun other => other.1 = row.1).isSome := by
    rw [List.find?_isSome]
    exact ⟨row, mem, by simp⟩
  obtain ⟨other, found⟩ := Option.isSome_iff_exists.mp some
  have named : other.1 = row.1 := by simpa using List.find?_some found
  have same : other = row :=
    List.inj_on_of_nodup_map distinct (List.mem_of_find?_eq_some found) mem named
  rw [GetCdkData, found, same, Option.map_some]

theorem addCodes_eq (db : CdkDb) (row : CdkData) (ids : List CdkId) :
    db.addCodes row ids = { db with codes := db.codes ++ ids.map fun cdkId => (cdkId, row) } := by
  induction ids generalizing db with
  | nil => simp [addCodes]
  | cons cdkId ids ih =>
      have rest := ih (db.addCode cdkId row)
      simpa [addCodes, addCode] using rest

theorem checkBatch_none (refused : db.CheckBatchIdAndUpdate args = none)
    (named : args.batchId = some batchId) : db.GetBatchIdData batchId ≠ none := by
  intro absent
  simp [CheckBatchIdAndUpdate, named, absent] at refused

/-- The batch is added before anything else is looked at. -/
theorem checkBatch_some (passed : db.CheckBatchIdAndUpdate args = some (db', batchId)) :
    args.batchId = some batchId ∧ db.GetBatchIdData batchId = none ∧
      db'.codes = db.codes ∧ db'.batches ≠ db.batches := by
  simp only [CheckBatchIdAndUpdate] at passed
  cases named : args.batchId with
  | none => simp [named] at passed
  | some id =>
      simp only [named] at passed
      split at passed
      · cases passed
      · rename_i absent
        obtain ⟨rfl, rfl⟩ := Prod.mk.inj (Option.some.inj passed)
        exact ⟨rfl, by simpa using absent, rfl, by simp⟩

/-- An error after the batch has been added is not one that adds nothing. -/
theorem not_creates_of_error {ret : RetVal} (error : ret ≠ .succeed_1)
    (added : db'.batches ≠ db.batches) : ¬db.Creates args (db', ret) :=
  fun creates => added (creates.failed error).1

/-- A success is as it should be just when the ids, old and new, differ. -/
theorem creates_iff_nodup {row : CdkData} {new : List CdkId}
    (codes : db'.codes = db.codes ++ new.map fun cdkId => (cdkId, row))
    (capitals : ∀ cdkId ∈ new, upper cdkId = cdkId)
    (asked : match args.given with
      | some cdkId => new = [upper cdkId]
      | none => (new.length : Int) = args.limit) :
    db.Creates args (db', .succeed_1) ↔ (db.ids ++ new).Nodup := by
  have all : db'.ids = db.ids ++ new := by
    simp [ids, codes, Function.comp_def]
  constructor
  · intro creates
    rw [← all]
    exact creates.distinct rfl
  · intro distinct
    rw [← all] at distinct
    refine ⟨fun error => absurd rfl error, fun _ => ⟨_, codes, ?_⟩, fun _ => distinct, ?_⟩
    · cases given : args.given with
      | none => simpa [given] using asked
      | some cdkId => simpa [given] using asked
    · intro _ more added other mem reward now records requests typed
      simp only [codes, List.append_cancel_left_eq] at added
      subst added
      obtain ⟨cdkId, isNew, rfl⟩ := List.mem_map.mp mem
      have stored : (cdkId, row) ∈ db'.codes := by
        rw [codes]
        exact List.mem_append_right _ mem
      have found := getCdkData_of_mem distinct stored
      rw [capitals cdkId isNew] at typed
      simp only [CdkState.callDb, state, typed, found]

/-- One code with a given id, which is not in the table as it was typed. -/
theorem creates_given {row : CdkData} {cdkId : CdkId}
    (codes : db'.codes = db.codes ++ [(upper cdkId, row)]) (given : args.given = some cdkId)
    (typed : cdkId ∉ db.ids) :
    db.Creates args (db', .succeed_1) ↔
      db.ids.Nodup ∧ cdkId ∉ db.ids ∧ upper cdkId ∉ db.ids := by
  have single := @creates_iff_nodup db db' args row [upper cdkId] codes
    (by simp [upper, toUpper_toUpper]) (by simp [given])
  rw [single, List.nodup_append]
  simp only [List.nodup_singleton, List.mem_singleton]
  constructor
  · rintro ⟨distinct, -, differ⟩
    exact ⟨distinct, typed, fun mem => differ _ mem _ rfl rfl⟩
  · rintro ⟨distinct, -, absent⟩
    refine ⟨distinct, trivial, ?_⟩
    rintro id mem _ rfl rfl
    exact absent mem

/-- Codes that are made, in the number that is asked for. -/
theorem creates_made {row : CdkData} {turns : Nat → Turn}
    (codes : db'.codes = db.codes ++ (args.made turns).map fun cdkId => (cdkId, row))
    (given : args.given = none) (some_ : 0 < args.limit) :
    db.Creates args (db', .succeed_1) ↔ db.ids.Nodup ∧ 0 < args.limit ∧
      (∀ id ∈ args.made turns, id ∉ db.ids) ∧ (800718 < args.limit → (args.made turns).Nodup) := by
  have length : ((args.made turns).length : Int) = args.limit := by
    simp only [CreateArgs.made, List.length_map, List.length_range]
    omega
  have capitals : ∀ cdkId ∈ args.made turns, upper cdkId = cdkId := by
    intro cdkId mem
    obtain ⟨i, -, rfl⟩ := List.mem_map.mp mem
    exact upper_makeId _ _
  have many := @creates_iff_nodup db db' args row (args.made turns) codes capitals
    (by simpa [given] using length)
  rw [many, List.nodup_append]
  constructor
  · rintro ⟨distinct, made, differ⟩
    exact ⟨distinct, some_, fun id mem old => differ _ old _ mem rfl, fun _ => made⟩
  · rintro ⟨distinct, -, fresh, large⟩
    refine ⟨distinct, ?_, ?_⟩
    · by_cases few : args.limit ≤ 800718
      · exact made_nodup few turns
      · exact large (not_le.mp few)
    · rintro id old _ mem rfl
      exact fresh id mem old

/-- A request to create codes is all or nothing, and its codes are new and can be redeemed,
exactly where it is creatable. -/
theorem createCDK_creates (db : CdkDb) (args : CreateArgs) (turns : Nat → Turn) :
    db.Creates args (db.CreateCDK args turns) ↔ db.Creatable args turns := by
  simp only [CreateCDK]
  cases check : db.CheckBatchIdAndUpdate args with
  | none =>
      refine iff_of_true ⟨fun _ => ⟨rfl, rfl⟩, by rintro ⟨⟩, by rintro ⟨⟩, by rintro ⟨⟩⟩ ?_
      intro batchId named absent
      exact absurd absent (checkBatch_none check named)
  | some checked =>
      obtain ⟨db', batchId⟩ := checked
      obtain ⟨named, absent, codes, added⟩ := checkBatch_some check
      have same : db'.ids = db.ids := by rw [ids, codes, ids]
      have creatable : db.Creatable args turns ↔ db.ids.Nodup ∧ match args.given with
          | some cdkId => cdkId ∉ db.ids ∧ upper cdkId ∉ db.ids
          | none => 0 < args.limit ∧ (∀ id ∈ args.made turns, id ∉ db.ids) ∧
              (800718 < args.limit → (args.made turns).Nodup) := by
        constructor
        · exact fun all => all batchId named absent
        · intro holds other named' _
          exact holds
      rw [creatable]
      cases given : args.given with
      | some cdkId =>
          simp only
          by_cases exists' : (db'.GetCdkData cdkId).isSome
          · rw [if_pos exists']
            rw [getCdkData_isSome, same] at exists'
            exact iff_of_false (not_creates_of_error (by rintro ⟨⟩) added)
              fun holds => holds.2.1 exists'
          · rw [if_neg exists']
            rw [getCdkData_isSome, same] at exists'
            have one : (db'.addCode (upper cdkId) (addData args batchId)).codes =
                db.codes ++ [(upper cdkId, addData args batchId)] := by
              simp [addCode, codes]
            exact creates_given one given exists'
      | none =>
          simp only
          by_cases none' : args.limit ≤ 0
          · rw [if_pos none']
            exact iff_of_false (not_creates_of_error (by rintro ⟨⟩) added)
              fun holds => absurd holds.2.1 (not_lt.mpr none')
          · rw [if_neg none']
            have all : (db'.addCodes (addData args batchId) (args.made turns)).codes = db.codes ++
                (args.made turns).map fun cdkId => (cdkId, addData args batchId) := by
              simp [addCodes_eq, codes]
            exact creates_made all given (not_le.mp none')

/-- A request for batch 1 with an id, a number of codes or neither. -/
def firstBatch (cdkId : Option CdkId) (num : Option Int) : CreateArgs :=
  ⟨.type1, some 1, num, cdkId, 0, 86400, some ["all"], some true, []⟩

/-- A table whose only code is `id`, of another batch. -/
def oneCode (id : CdkId) : CdkDb :=
  ⟨[(id, addData (firstBatch none none) 0)], [(0, ⟨0, 86400, true, none⟩)]⟩

/-- Every turn at the same moment with the same random number. -/
def still (_ : Nat) : Turn := ⟨⟨12, 0, 1, 1, 0⟩, 0⟩

/-- A code that exists, and no codes at all, are refused after the batch has been added; in
small letters an id that exists is added again; and what the clock and the random number made
once they make again. -/
theorem createCDK_fails :
    ¬(oneCode ['H', 'U']).Creates (firstBatch (some ['H', 'U']) none)
        ((oneCode ['H', 'U']).CreateCDK (firstBatch (some ['H', 'U']) none) still) ∧
      ¬(oneCode ['H', 'U']).Creates (firstBatch none none)
        ((oneCode ['H', 'U']).CreateCDK (firstBatch none none) still) ∧
      ¬(oneCode ['H', 'U']).Creates (firstBatch (some ['h', 'u']) none)
        ((oneCode ['H', 'U']).CreateCDK (firstBatch (some ['h', 'u']) none) still) ∧
      ¬(oneCode (makeId 1 (still 1))).Creates (firstBatch none (some 1))
        ((oneCode (makeId 1 (still 1))).CreateCDK (firstBatch none (some 1)) still) := by
  refine ⟨fun creates => ?_, fun creates => ?_, fun creates => ?_, fun creates => ?_⟩
  · exact absurd (creates.failed (by decide)).1 (by decide)
  · exact absurd (creates.failed (by decide)).1 (by decide)
  · exact absurd (creates.distinct (by decide)) (by decide)
  · have made : ((oneCode (makeId 1 (still 1))).CreateCDK (firstBatch none (some 1)) still).1.ids =
        [makeId 1 (still 1), makeId 1 (still 1)] := rfl
    have twice := creates.distinct rfl
    rw [made] at twice
    simp at twice

end CdkDb

end HuluLandlord.Services
