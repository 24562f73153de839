import Mathlib.Data.Finset.Card
import SessionWatch.Proofs.Holdings

/-!
Records in a store in memory. Over any sequence of calls that have records written and indexed, each
call tells how many keys its set did not have before; a set comes to have all keys that were written
through it, and under a key stands what was last written there, as long as that has not expired.
-/

namespace SessionWatch.Storage

/-! ### What calls write -/

/-- A call that has records written and indexed in a set. It finds the clocks so, and the store
refuses these operations at the time. -/
structure Indexing where
  clock : Clock
  refused : List Operation := []
  set : String
  records : List Record

namespace Indexing

def keys (x : Indexing) : List String := x.records.map (·.key)

def IsTaken (x : Indexing) : Prop := .index ∉ x.refused

instance : DecidablePred IsTaken := fun x => inferInstanceAs (Decidable (.index ∉ x.refused))

/-- The clock can show when each record expires, and a word can count the records. -/
structure IsFeasible (x : Indexing) : Prop where
  inReach : ∀ r ∈ x.records, r.InReach x.clock
  counted : x.records.length < UInt64.size

/-- The records that are written in calls, in order and each with the clocks of its call. -/
def writes (xs : List Indexing) : List (Clock × Record) :=
  (xs.filter fun x => x.IsTaken).flatMap fun x => x.records.map (x.clock, ·)

def lastWrite (xs : List Indexing) (key : String) : Option (Clock × Record) :=
  ((writes xs).filter fun w => w.2.key = key).getLast?

theorem lastWrite_cons (x : Indexing) (xs : List Indexing) (key : String) :
    lastWrite (x :: xs) key = (lastWrite xs key).or (lastWrite [x] key) := by
  have hwrites : writes (x :: xs) = writes [x] ++ writes xs := by
    by_cases hx : x.IsTaken <;> simp [writes, hx]
  simp only [lastWrite, hwrites, List.filter_append, List.getLast?_append]

theorem lastWrite_single (x : Indexing) (key : String) : lastWrite [x] key =
    if x.IsTaken then ((x.records.filter fun r => r.key = key).getLast?).map (x.clock, ·)
    else none := by
  by_cases hx : x.IsTaken
  · have hwrites : writes [x] = x.records.map (x.clock, ·) := by simp [writes, hx]
    rw [if_pos hx, lastWrite, hwrites, List.filter_map, List.getLast?_map]
    rfl
  · simp [lastWrite, writes, hx]

end Indexing

/-- The payload of a record that was written at one time, as it is found at another. -/
def Record.shown (r : Record) (written now : Clock) : Option String :=
  match r.expiry with
  | none => some r.payload
  | some ms => if now.monotonic < written.monotonic + ms then some r.payload else none

def Record.stored (r : Record) (written : Clock) : Stored :=
  ⟨r.payload, r.expiry.map (written.monotonic + ·)⟩

theorem Record.deadline_of_inReach {c : Clock} {r : Record} (h : r.InReach c) :
    r.expiry.bind c.deadline? = r.expiry.map (c.monotonic + ·) := by
  cases hms : r.expiry with
  | none => rfl
  | some ms =>
    have hshown : (c.deadline? ms).isSome = true := h ms hms
    rw [Option.bind_some, Option.map_some]
    unfold Clock.deadline? at hshown ⊢
    split at hshown
    · next hfits => rw [if_pos hfits]
    · cases hshown

def newKeys (members : KeySet) (keys : List String) : Finset String :=
  keys.toFinset.filter fun k => members.contains k = false

namespace Memory

/-- One call, and how many keys were new to its set. -/
def index (m : Memory) (x : Indexing) : Memory × Option (Result UInt64) :=
  ({ m with failing := x.refused } : Memory).exchange x.clock (.index x.set x.records)

def indexAll (m : Memory) (xs : List Indexing) : Memory := xs.foldl (fun m x => (m.index x).1) m

/-- The number that a call tells, if it is for a set and is not refused. -/
def told (m : Memory) (set : String) (x : Indexing) : List UInt64 :=
  if x.set = set then (m.index x).2.toList.filterMap Except.toOption else []

def counts (m : Memory) (set : String) : List Indexing → List UInt64
  | [] => []
  | x :: xs => m.told set x ++ (m.index x).1.counts set xs

variable {m : Memory} {x : Indexing} {xs : List Indexing}

@[simp] theorem indexAll_nil (m : Memory) : m.indexAll [] = m := rfl

@[simp] theorem indexAll_cons (m : Memory) (x : Indexing) (xs : List Indexing) :
    m.indexAll (x :: xs) = (m.index x).1.indexAll xs := rfl

/-! ### One call -/

theorem get?_putAll (c : Clock) (m : Memory) (rs : List Record) (key : String) :
    (putAll c m rs).strings.get? key =
      (((rs.filter fun r => r.key = key).getLast?).map fun r =>
        ⟨r.payload, r.expiry.bind c.deadline?⟩).or (m.strings.get? key) := by
  induction rs generalizing m with
  | nil => rfl
  | cons r rs ih =>
    rw [putAll_cons, ih, put, Table.get?_insert]
    by_cases hk : r.key = key
    · simp only [hk, List.filter_cons, decide_true, if_true, List.getLast?_cons, Option.map_some]
      cases (rs.filter fun r => r.key = key).getLast? <;> rfl
    · simp [hk]

theorem contains_addKeys (s : KeySet) (ks : List String) (k : String) :
    (addKeys s ks).1.contains k = true ↔ s.contains k = true ∨ k ∈ ks := by
  induction ks generalizing s with
  | nil => simp [addKeys]
  | cons j ks ih =>
    have hinsert : (s.insert j ()).contains k = true ↔ s.contains k = true ∨ k = j := by
      by_cases hj : j = k
      · simp [Table.contains, hj]
      · simp [Table.contains, hj, Ne.symm hj]
    show (addKeys (s.insert j ()) ks).1.contains k = true ↔ _
    rw [ih, hinsert, List.mem_cons, or_assoc]

theorem snd_addKeys (s : KeySet) (ks : List String) :
    (addKeys s ks).2 = (newKeys s ks).card := by
  induction ks generalizing s with
  | nil => rfl
  | cons k ks ih =>
    have hmem : ∀ j, j ∈ newKeys (s.insert k ()) ks ↔ j ∈ newKeys s ks ∧ j ≠ k := by
      intro j
      by_cases hj : k = j
      · simp [newKeys, Table.contains, hj]
      · simp [newKeys, Table.contains, hj, Ne.symm hj]
    show (addKeys (s.insert k ()) ks).2 + (if s.contains k then 0 else 1) = _
    rw [ih]
    cases hk : s.contains k with
    | true =>
      have hsame : newKeys s (k :: ks) = newKeys (s.insert k ()) ks := by
        ext j
        rw [hmem]
        by_cases hj : j = k <;> simp [newKeys, hj, hk]
      rw [hsame]
      rfl
    | false =>
      have hgrown : newKeys s (k :: ks) = insert k (newKeys (s.insert k ()) ks) := by
        ext j
        rw [Finset.mem_insert, hmem]
        by_cases hj : j = k <;> simp [newKeys, hj, hk]
      have hnew : k ∉ newKeys (s.insert k ()) ks := fun h => ((hmem k).1 h).2 rfl
      rw [hgrown, Finset.card_insert_of_notMem hnew]
      rfl

theorem fails_index (m : Memory) (x : Indexing) :
    ({ m with failing := x.refused } : Memory).fails (.index x.set x.records) =
      decide (¬ x.IsTaken) := by
  simp [fails, Request.operation, Indexing.IsTaken]

theorem index_of_refused (m : Memory) (h : ¬ x.IsTaken) :
    m.index x = ({ m with failing := x.refused },
      some (.error ((failure m.name (.index x.set x.records)).attach .failingMode))) :=
  exchange_of_fails _ ((m.fails_index x).trans (decide_eq_true h))

theorem index_of_nil (m : Memory) (h : x.IsTaken) (hnil : x.records = []) :
    m.index x = ({ m with failing := x.refused }, some (.ok 0)) := by
  have hserves := (m.fails_index x).trans (decide_eq_false (not_not.2 h))
  rw [index, exchange_of_not_fails _ hserves, hnil]
  rfl

theorem index_of_taken (m : Memory) (h : x.IsTaken) (hx : x.IsFeasible) (hne : x.records ≠ []) :
    m.index x =
      let m' := (putAll x.clock { m with failing := x.refused } x.records).addMembers x.set x.keys
      (m'.1, some (.ok m'.2)) := by
  have hserves := (m.fails_index x).trans (decide_eq_false (not_not.2 h))
  have hwritten := writeAll_of_inReach hx.inReach { m with failing := x.refused }
  rw [index, exchange_of_not_fails _ hserves, Indexing.keys]
  obtain ⟨r, rs, hrs⟩ := List.exists_cons_of_ne_nil hne
  rw [hrs] at hwritten ⊢
  simp only [serve, hwritten]

theorem members_index (hx : x.IsTaken → x.IsFeasible) (set : String) : (m.index x).1.members set =
    if x.IsTaken ∧ x.set = set then (addKeys (m.members set) x.keys).1 else m.members set := by
  by_cases h : x.IsTaken
  · by_cases hnil : x.records = []
    · rw [index_of_nil m h hnil]
      simp [Indexing.keys, hnil, addKeys, members]
    · rw [index_of_taken m h (hx h) hnil]
      by_cases hset : x.set = set
      · subst hset
        rw [if_pos ⟨h, rfl⟩, putAll_eq]
        simp [addMembers, members, record]
      · rw [if_neg fun hand => hset hand.2, putAll_eq]
        simp [addMembers, members, record, hset]
  · rw [index_of_refused m h, if_neg fun hand => h hand.1]
    rfl

theorem strings_index (hx : x.IsTaken → x.IsFeasible) (key : String) :
    (m.index x).1.strings.get? key =
      ((Indexing.lastWrite [x] key).map fun w => w.2.stored w.1).or (m.strings.get? key) := by
  rw [Indexing.lastWrite_single]
  by_cases h : x.IsTaken
  · rw [if_pos h]
    by_cases hnil : x.records = []
    · rw [index_of_nil m h hnil, hnil]
      rfl
    · have hstrings : (m.index x).1.strings =
          (putAll x.clock { m with failing := x.refused } x.records).strings := by
        rw [index_of_taken m h (hx h) hnil]
        rfl
      rw [hstrings, get?_putAll, Option.map_map]
      cases hlast : (x.records.filter fun r => r.key = key).getLast? with
      | none => rfl
      | some r =>
        have hr : r ∈ x.records := (List.mem_filter.1 (List.mem_of_getLast? hlast)).1
        simp only [Option.map_some, Function.comp_apply, Record.stored,
          Record.deadline_of_inReach ((hx h).inReach r hr)]
  · rw [if_neg h, index_of_refused m h]
    rfl

theorem answer_index (h : x.IsTaken) (hx : x.IsFeasible) :
    ∃ n, (m.index x).2 = some (.ok n) ∧
      n.toNat = (newKeys (m.members x.set) x.keys).card := by
  have hcount : (newKeys (m.members x.set) x.keys).card < UInt64.size := by
    have hle : (newKeys (m.members x.set) x.keys).card ≤ x.keys.length :=
      (Finset.card_filter_le _ _).trans (List.toFinset_card_le _)
    rw [Indexing.keys, List.length_map] at hle
    exact hle.trans_lt hx.counted
  by_cases hnil : x.records = []
  · refine ⟨0, by rw [index_of_nil m h hnil], ?_⟩
    simp [newKeys, Indexing.keys, hnil]
  · refine ⟨_, by rw [index_of_taken m h hx hnil], ?_⟩
    have hadded : ((putAll x.clock { m with failing := x.refused } x.records).addMembers
        x.set x.keys).2 = .ofNat (newKeys (m.members x.set) x.keys).card := by
      rw [putAll_eq, ← snd_addKeys]
      rfl
    rw [hadded, UInt64.toNat_ofNat_of_lt' hcount]

/-! ### All calls -/

theorem strings_indexAll (hx : ∀ x ∈ xs, x.IsTaken → x.IsFeasible) (key : String) :
    (m.indexAll xs).strings.get? key =
      ((Indexing.lastWrite xs key).map fun w => w.2.stored w.1).or (m.strings.get? key) := by
  induction xs generalizing m with
  | nil => rfl
  | cons x xs ih =>
    rw [indexAll_cons, ih fun y hy => hx y (by simp [hy]), strings_index (hx x (by simp)),
      Indexing.lastWrite_cons x xs, Option.map_or, Option.or_assoc]

theorem contains_members_indexAll (hx : ∀ x ∈ xs, x.IsTaken → x.IsFeasible) (set key : String) :
    ((m.indexAll xs).members set).contains key = true ↔
      (m.members set).contains key = true ∨ ∃ x ∈ xs, x.IsTaken ∧ x.set = set ∧ key ∈ x.keys := by
  induction xs generalizing m with
  | nil => simp
  | cons x xs ih =>
    have hone : ((m.index x).1.members set).contains key = true ↔
        (m.members set).contains key = true ∨ x.IsTaken ∧ x.set = set ∧ key ∈ x.keys := by
      rw [members_index (hx x (by simp))]
      by_cases hand : x.IsTaken ∧ x.set = set
      · rw [if_pos hand, contains_addKeys]
        simp [hand]
      · rw [if_neg hand, ← and_assoc]
        simp [hand]
    rw [indexAll_cons, ih fun y hy => hx y (by simp [hy]), hone, or_assoc]
    simp only [List.mem_cons, exists_eq_or_imp]

theorem size_members_index (hx : x.IsTaken → x.IsFeasible) (set : String) :
    ((m.told set x).map UInt64.toNat).sum + (m.members set).size =
      ((m.index x).1.members set).size := by
  rw [members_index hx, told]
  by_cases hset : x.set = set
  · subst hset
    by_cases h : x.IsTaken
    · obtain ⟨n, hn, hcard⟩ := answer_index (m := m) h (hx h)
      rw [if_pos rfl, if_pos ⟨h, rfl⟩, hn, size_addKeys, snd_addKeys, ← hcard]
      simp [Except.toOption, Nat.add_comm]
    · rw [if_pos rfl, if_neg fun hand => h hand.1, index_of_refused m h]
      exact Nat.zero_add _
  · rw [if_neg hset, if_neg fun hand => hset hand.2]
    simp

theorem size_members_indexAll (hx : ∀ x ∈ xs, x.IsTaken → x.IsFeasible) (set : String) :
    ((m.counts set xs).map UInt64.toNat).sum + (m.members set).size =
      ((m.indexAll xs).members set).size := by
  induction xs generalizing m with
  | nil => simp [counts]
  | cons x xs ih =>
    have hone := size_members_index (m := m) (hx x (by simp)) set
    have hrest := ih (m := (m.index x).1) fun y hy => hx y (by simp [hy])
    rw [indexAll_cons, ← hrest, ← hone, counts, List.map_append, List.sum_append]
    omega

theorem get?_of_stored {written now : Clock} {r : Record} {key : String}
    (h : m.strings.get? key = some (r.stored written)) :
    m.get? now key = r.shown written now := by
  unfold get? Record.shown
  rw [h]
  cases hexpiry : r.expiry <;> simp [Record.stored, hexpiry]

/-- What becomes of a call: one that is taken tells how many keys its batch has that were not in
its set, each counted once; one that is refused, or has nothing to write, leaves all as it was. -/
structure Answers (m : Memory) (x : Indexing) : Prop where
  taken : x.IsTaken → ∃ n, (m.index x).2 = some (.ok n) ∧
    n.toNat = (newKeys (m.members x.set) x.keys).card
  refused : ¬ x.IsTaken → ∃ e, m.index x = ({ m with failing := x.refused }, some (.error e))
  nothing : x.records = [] → (m.index x).1 = { m with failing := x.refused }

theorem answers_of_isFeasible (m : Memory) (hx : x.IsTaken → x.IsFeasible) : m.Answers x where
  taken h := answer_index h (hx h)
  refused h := ⟨_, index_of_refused m h⟩
  nothing hnil := by
    by_cases h : x.IsTaken
    · rw [index_of_nil m h hnil]
    · rw [index_of_refused m h]

structure Indexed (name : String) (xs : List Indexing) (m : Memory) : Prop where
  /-- What the calls for a set have told adds up to its size. -/
  total : ∀ set,
    ((({ name } : Memory).counts set xs).map UInt64.toNat).sum = (m.members set).size
  members_iff : ∀ set key, (m.members set).contains key = true ↔
    ∃ x ∈ xs, x.IsTaken ∧ x.set = set ∧ key ∈ x.keys
  /-- Under a key is what was written there last, unless that has expired. -/
  get?_eq : ∀ (now : Clock) key,
    m.get? now key = (Indexing.lastWrite xs key).bind fun w => w.2.shown w.1 now
  /-- What is found under a key is in each set that it was written through. -/
  listed : ∀ (now : Clock) key, (m.get? now key).isSome = true →
    ∀ x ∈ xs, x.IsTaken → key ∈ x.keys → (m.members x.set).contains key = true

theorem indexed_indexAll (name : String) (hx : ∀ x ∈ xs, x.IsTaken → x.IsFeasible) :
    Indexed name xs (({ name } : Memory).indexAll xs) := by
  have hmembers : ∀ set key,
      (((({ name } : Memory).indexAll xs).members set).contains key = true ↔
        ∃ x ∈ xs, x.IsTaken ∧ x.set = set ∧ key ∈ x.keys) := by
    intro set key
    rw [contains_members_indexAll hx]
    exact or_iff_right (by simp [members, Table.contains])
  have htotal : ∀ set, ((({ name } : Memory).counts set xs).map UInt64.toNat).sum =
      ((({ name } : Memory).indexAll xs).members set).size :=
    fun set => size_members_indexAll (m := ({ name } : Memory)) hx set
  refine ⟨htotal, hmembers, fun now key => ?_,
    fun now key _ x hmem h hkey => (hmembers x.set key).2 ⟨x, hmem, h, rfl, hkey⟩⟩
  have hstrings := strings_indexAll (m := ({ name } : Memory)) hx key
  cases hlast : Indexing.lastWrite xs key with
  | none =>
    rw [hlast] at hstrings
    unfold get?
    rw [hstrings]
    rfl
  | some w =>
    rw [hlast] at hstrings
    exact get?_of_stored hstrings

/-- Calls come in any order and at any times, refused or not, with keys repeated in a batch or shared
between sets. If the clock can show when the records of each call that is taken expire, then each
such call tells how many keys were new to its set, and the store is what all the calls have made of
it. A request that a store fails at, of whatever kind, leaves the store as it was. -/
theorem indexing_accounts (name : String) (xs : List Indexing)
    (hx : ∀ x ∈ xs, x.IsTaken → x.IsFeasible) :
    (∀ before x later, xs = before ++ x :: later →
        (({ name } : Memory).indexAll before).Answers x) ∧
      Indexed name xs (({ name } : Memory).indexAll xs) ∧
      ∀ (m : Memory) (now : Clock) (r : Request), m.fails r = true → (m.exchange now r).1 = m := by
  refine ⟨fun before x later hxs => ?_, indexed_indexAll name hx, fun m now r h => ?_⟩
  · have hmem : x ∈ xs := by simp [hxs]
    exact answers_of_isFeasible _ (hx x hmem)
  · rw [exchange_of_fails now h]

end Memory

namespace Sample

/-- A key twice in one batch and in a second set, a call that is refused and one with nothing to
write, and a moment of expiry set anew. -/
def indexings : List Indexing :=
  [{ clock := ⟨0, 10⟩, set := "pods",
     records := [⟨"a", "1", some 500⟩, ⟨"b", "2", none⟩, ⟨"a", "3", some 100⟩] },
   { clock := ⟨0, 20⟩, set := "nodes", records := [⟨"a", "4", none⟩] },
   { clock := ⟨0, 30⟩, refused := [.index], set := "pods", records := [⟨"d", "7", none⟩] },
   { clock := ⟨0, 40⟩, set := "pods", records := [] },
   { clock := ⟨0, 50⟩, set := "pods", records := [⟨"b", "5", some 100⟩, ⟨"c", "6", none⟩] }]

end Sample

theorem Memory.indexing_accounts_sample :
    let m := ({ name := "mock" } : Memory).indexAll Sample.indexings
    (∀ x ∈ Sample.indexings, x.IsTaken → x.IsFeasible) ∧
      ({ name := "mock" } : Memory).counts "pods" Sample.indexings = [2, 0, 1] ∧
      (m.members "pods").size = 3 ∧ (m.members "nodes").contains "a" = true ∧
      ["a", "b", "c", "d"].map (m.get? ⟨0, 140⟩) = [some "4", some "5", some "6", none] ∧
      m.get? ⟨0, 150⟩ "b" = none := by
  intro m
  have hfeasible : ∀ x ∈ Sample.indexings, x.IsTaken → x.IsFeasible := by
    intro x hx _
    have hinReach : ∀ x ∈ Sample.indexings, ∀ r ∈ x.records, r.InReach x.clock := by
      simp [Sample.indexings, Record.InReach, Clock.deadline?, Clock.lastSecond]
    have hcounted : ∀ x ∈ Sample.indexings, x.records.length < UInt64.size := by decide +kernel
    exact ⟨hinReach x hx, hcounted x hx⟩
  obtain ⟨-, hindexed, -⟩ := Memory.indexing_accounts "mock" Sample.indexings hfeasible
  have hcounts : ({ name := "mock" } : Memory).counts "pods" Sample.indexings = [2, 0, 1] := by
    decide +kernel
  refine ⟨hfeasible, hcounts, ?_, ?_, ?_, ?_⟩
  · rw [← hindexed.total, hcounts]
    rfl
  · rw [hindexed.members_iff]
    decide +kernel
  · simp only [List.map_cons, List.map_nil, m, hindexed.get?_eq]
    decide +kernel
  · rw [hindexed.get?_eq]
    decide +kernel

end SessionWatch.Storage
