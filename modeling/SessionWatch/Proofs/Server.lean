import SessionWatch.Proofs.Entries

/-!
What is taken for granted of a redis server: what it replies to the commands that the monitor sends, and
what then stands under its keys. A client that is linked to a server sends it the commands of a request
and reads its reply.
-/

namespace SessionWatch.Storage.Redis

/-- What stands under a key. A text goes with the milliseconds that are left to it. -/
inductive Item where
  | text (value : String) (left : Option ℕ)
  | set (members : KeySet)
  | stream (entries : List Fields)

def withAll (members : KeySet) (keys : List String) : KeySet :=
  keys.foldl (fun s key => s.insert key ()) members

def Item.ofStored? (t : ℕ) (x : Stored) : Option Item :=
  match x.deadline with
  | none => some (.text x.value none)
  | some d => if t < d then some (.text x.value (some (d - t))) else none

theorem Item.of_ofStored? {t : ℕ} {x : Stored} {i : Item} (h : ofStored? t x = some i) :
    ∃ left, i = .text x.value left := by
  rw [ofStored?] at h
  split at h
  · exact ⟨none, (Option.some.inj h).symm⟩
  · next d _ =>
    split at h
    · exact ⟨some (d - t), (Option.some.inj h).symm⟩
    · cases h

/-- A server, as far as its clients can tell. -/
structure Server where
  State : Type
  /-- Commands sent at once, and the reply to the last of them. -/
  perform : Clock → State → List (List String) → State × Reply
  /-- What stands under a key at a moment of the monotonic clock. -/
  look : State → ℕ → String → Option Item

namespace Server

variable (S : Server)

/-- From now on the same stands under every key. -/
def Unchanged (c : Clock) (s s' : S.State) : Prop :=
  ∀ t, c.monotonic ≤ t → ∀ key, S.look s' t key = S.look s t key

/-- From now on something else stands under one key. -/
structure Changed (c : Clock) (s s' : S.State) (key : String) (item : ℕ → Option Item) : Prop where
  here : ∀ t, c.monotonic ≤ t → S.look s' t key = item t
  elsewhere : ∀ t, c.monotonic ≤ t → ∀ k, k ≠ key → S.look s' t k = S.look s t k

/-- Commands one after the other, and the replies to all of them. -/
def inTurn (c : Clock) (s : S.State) : List (List String) → S.State × List Reply
  | [] => (s, [])
  | command :: rest =>
    let x := S.perform c s [command]
    let y := inTurn c x.1 rest
    (y.1, x.2 :: y.2)

/-- The longest time that a text is kept: 2^62 milliseconds. -/
def longest : ℕ := 4611686018427387904

/-- A well-formed command that writes a text or a set. -/
inductive Writes : List String → Prop
  | set (key value : String) : Writes ["SET", key, value]
  | setFor (key value : String) {ms : ℕ} : 0 < ms → ms ≤ longest →
      Writes ["SET", key, value, "PX", Decimal.textOfNat ms]
  | sadd (key : String) {members : List String} : members ≠ [] →
      Writes (["SADD", key] ++ members)

/-- The commands of the monitor have their usual meaning. -/
structure Standard : Prop where
  /-- Whole seconds, and the microseconds of the current one. -/
  time : ∀ c s, ∃ us : Int64, 0 ≤ us ∧ us < 1000000 ∧
    (S.perform c s [["TIME"]]).2 =
      .array [.bulk (Decimal.textOfInt c.seconds.toInt), .bulk (Decimal.textOfInt us.toInt)] ∧
    S.Unchanged c s (S.perform c s [["TIME"]]).1
  ping : ∀ c s, (S.perform c s [["PING"]]).2 = .simple "PONG" ∧
    S.Unchanged c s (S.perform c s [["PING"]]).1
  /-- Under a key that has a stream, or nothing, an entry is added under an id of the server's. -/
  xadd : ∀ c s key fields entries, fields ≠ [] →
    (S.look s c.monotonic key).getD (.stream []) = .stream entries →
    let x := S.perform c s [["XADD", key, "*"] ++ fields.flatMap fun f => [f.1, f.2]]
    (∃ id, x.2 = .bulk id) ∧ S.Changed c s x.1 key fun _ => some (.stream (entries ++ [fields]))
  set : ∀ c s key value,
    let x := S.perform c s [["SET", key, value]]
    x.2 = .okay ∧ S.Changed c s x.1 key fun _ => some (.text value none)
  /-- A text with an expiry is there until then. -/
  setFor : ∀ c s key value ms, 0 < ms → ms ≤ longest →
    let x := S.perform c s [["SET", key, value, "PX", Decimal.textOfNat ms]]
    x.2 = .okay ∧ S.Changed c s x.1 key fun t =>
      if t < c.monotonic + ms then some (.text value (some (c.monotonic + ms - t))) else none
  /-- The reply tells by how many members the set has grown. -/
  sadd : ∀ c s key keys members, keys ≠ [] →
    (S.look s c.monotonic key).getD (.set ∅) = .set members →
    let x := S.perform c s [["SADD", key] ++ keys]
    x.2 = .int (.ofNat ((withAll members keys).size - members.size)) ∧
      S.Changed c s x.1 key fun _ => some (.set (withAll members keys))
  /-- A transaction is carried out as its commands are one after the other. -/
  transaction : ∀ c s commands, (∀ command ∈ commands, Writes command) →
    S.perform c s (["MULTI"] :: (commands ++ [["EXEC"]])) =
      ((S.inTurn c s commands).1, .array (S.inTurn c s commands).2)

/-! ### A server with these meanings -/

inductive Kept where
  | text (x : Stored)
  | set (members : KeySet)
  | stream (last : StreamId) (entries : List Fields)

namespace Kept

def item? (t : ℕ) : Kept → Option Item
  | .text x => Item.ofStored? t x
  | .set members => some (.set members)
  | .stream _ entries => some (.stream entries)

end Kept

def live? (c : Clock) (kept : String → Option Kept) (key : String) : Option Kept :=
  (kept key).filter fun x => (x.item? c.monotonic).isSome

def answer (c : Clock) (kept : String → Option Kept) :
    List String → (String → Option Kept) × Reply
  | ["TIME"] =>
    (kept, .array [.bulk (Decimal.textOfInt c.seconds.toInt),
      .bulk (Decimal.textOfInt (Int64.ofInt (c.wall.toInt % 1000 * 1000)).toInt)])
  | ["PING"] => (kept, .simple "PONG")
  | ["SET", key, value] => (Function.update kept key (some (.text ⟨value, none⟩)), .okay)
  | ["SET", key, value, "PX", ms] =>
    match Decimal.toNat? ms.toList with
    | some ms =>
      (Function.update kept key (some (.text ⟨value, some (c.monotonic + ms)⟩)), .okay)
    | none => (kept, .error "ERR value is not an integer or out of range")
  | "XADD" :: key :: "*" :: rest =>
    let add (last : StreamId) (entries : List Fields) :=
      let id := last.next c.millis
      (Function.update kept key (some (.stream id (entries ++ [pairUp rest]))), Reply.bulk id.text)
    match live? c kept key with
    | none => add ⟨0, 0⟩ []
    | some (.stream last entries) => add last entries
    | some _ => (kept, .error "WRONGTYPE")
  | "SADD" :: key :: keys =>
    let add (members : KeySet) :=
      (Function.update kept key (some (.set (withAll members keys))),
        Reply.int (.ofNat ((withAll members keys).size - members.size)))
    match live? c kept key with
    | none => add ∅
    | some (.set members) => add members
    | some _ => (kept, .error "WRONGTYPE")
  | _ => (kept, .error "ERR unknown command")

/-- The commands of a transaction are carried out when its end is reached. -/
def answerAll (c : Clock) (kept : String → Option Kept) :
    List (List String) → (String → Option Kept) × List Reply
  | [] => (kept, [])
  | command :: rest =>
    let x := answer c kept command
    let y := answerAll c x.1 rest
    (y.1, x.2 :: y.2)

abbrev plain : Server where
  State := String → Option Kept
  perform c kept sent :=
    match sent with
    | [command] => answer c kept command
    | ["MULTI"] :: rest =>
      let x := answerAll c kept rest.dropLast
      (x.1, .array x.2)
    | _ => (kept, .error "ERR unknown command")
  look kept t key := (kept key).bind (Kept.item? t)

theorem inTurn_plain (c : Clock) (kept : String → Option Kept) (commands : List (List String)) :
    plain.inTurn c kept commands = answerAll c kept commands := by
  induction commands generalizing kept with
  | nil => rfl
  | cons command rest ih =>
    have hrest := ih (answer c kept command).1
    simp only [inTurn, answerAll]
    exact congrArg (fun y : (String → Option Kept) × List Reply => (y.1, _ :: y.2)) hrest

theorem changed_plain (c : Clock) (kept : String → Option Kept) (key : String) (x : Kept) :
    plain.Changed c kept (Function.update kept key (some x)) key fun t => x.item? t where
  here t _ := by simp
  elsewhere t _ k hk := by simp [Function.update_of_ne hk]

theorem look_plain (c : Clock) (kept : String → Option Kept) (key : String) :
    plain.look kept c.monotonic key = (live? c kept key).bind (Kept.item? c.monotonic) := by
  show (kept key).bind (Kept.item? c.monotonic) = _
  rw [live?]
  cases kept key with
  | none => rfl
  | some x => cases hx : x.item? c.monotonic <;> simp [Option.filter, hx]

theorem item?_of_live? {c : Clock} {kept : String → Option Kept} {key : String} {x : Kept}
    {i j : Item} (hlive : live? c kept key = some x)
    (h : (plain.look kept c.monotonic key).getD i = j) : x.item? c.monotonic = some j := by
  obtain ⟨item, hitem⟩ := Option.isSome_iff_exists.1 (Option.filter_eq_some_iff.1 hlive).2
  rw [look_plain, hlive, Option.bind_some, hitem, Option.getD_some] at h
  rw [hitem, h]

theorem answer_xadd {c : Clock} {kept : String → Option Kept} {key : String} {entries : List Fields}
    (fields : Fields) (h : (plain.look kept c.monotonic key).getD (.stream []) = .stream entries) :
    ∃ id, answer c kept (["XADD", key, "*"] ++ fields.flatMap fun f => [f.1, f.2]) =
      (Function.update kept key (some (.stream id (entries ++ [fields]))), .bulk id.text) := by
  cases hlive : live? c kept key with
  | none =>
    rw [look_plain, hlive] at h
    obtain rfl : [] = entries := by simpa using h
    exact ⟨StreamId.next ⟨0, 0⟩ c.millis, by simp [answer, hlive]⟩
  | some x =>
    have hx := item?_of_live? hlive h
    cases x with
    | stream last es =>
      obtain rfl : es = entries := by simpa [Kept.item?] using hx
      exact ⟨last.next c.millis, by simp [answer, hlive]⟩
    | set members => cases hx
    | text y =>
      obtain ⟨left, hleft⟩ := Item.of_ofStored? hx
      cases hleft

theorem answer_sadd {c : Clock} {kept : String → Option Kept} {key : String} {members : KeySet}
    (keys : List String) (h : (plain.look kept c.monotonic key).getD (.set ∅) = .set members) :
    answer c kept (["SADD", key] ++ keys) =
      (Function.update kept key (some (.set (withAll members keys))),
        .int (.ofNat ((withAll members keys).size - members.size))) := by
  cases hlive : live? c kept key with
  | none =>
    rw [look_plain, hlive] at h
    obtain rfl : ∅ = members := by simpa using h
    simp [answer, hlive]
  | some x =>
    have hx := item?_of_live? hlive h
    cases x with
    | set old =>
      obtain rfl : old = members := by simpa [Kept.item?] using hx
      simp [answer, hlive]
    | stream last es => cases hx
    | text y =>
      obtain ⟨left, hleft⟩ := Item.of_ofStored? hx
      cases hleft

/-- A plain server gives the commands their usual meaning. -/
theorem plain_standard : plain.Standard where
  time c kept := by
    refine ⟨.ofInt (c.wall.toInt % 1000 * 1000), ?_, ?_, rfl, fun _ _ _ => rfl⟩
    · rw [Int64.le_iff_toInt_le, Int64.toInt_ofInt_of_le] <;> simp <;> omega
    · rw [Int64.lt_iff_toInt_lt, Int64.toInt_ofInt_of_le] <;> simp <;> omega
  ping c kept := ⟨rfl, fun _ _ _ => rfl⟩
  xadd c kept key fields entries _ hlook := by
    obtain ⟨id, hanswer⟩ := answer_xadd fields hlook
    show (∃ i, (answer c kept _).2 = _) ∧ plain.Changed c kept (answer c kept _).1 key _
    rw [hanswer]
    exact ⟨⟨id.text, rfl⟩, changed_plain c kept key _⟩
  set c kept key value := ⟨rfl, changed_plain c kept key (.text ⟨value, none⟩)⟩
  setFor c kept key value ms _ _ := by
    have hanswer : answer c kept ["SET", key, value, "PX", Decimal.textOfNat ms] =
        (Function.update kept key (some (.text ⟨value, some (c.monotonic + ms)⟩)), .okay) := by
      simp [answer, Decimal.textOfNat]
    show (answer c kept _).2 = _ ∧ plain.Changed c kept (answer c kept _).1 key _
    rw [hanswer]
    exact ⟨rfl, changed_plain c kept key _⟩
  sadd c kept key keys members _ hlook := by
    show (answer c kept _).2 = _ ∧ plain.Changed c kept (answer c kept _).1 key _
    rw [answer_sadd keys hlook]
    exact ⟨rfl, changed_plain c kept key _⟩
  transaction c kept commands _ := by
    have hperform : plain.perform c kept (["MULTI"] :: (commands ++ [["EXEC"]])) =
        ((answerAll c kept commands).1, .array (answerAll c kept commands).2) := by
      rcases hrest : commands ++ [["EXEC"]] with _ | ⟨first, rest⟩
      · simp at hrest
      · show ((answerAll c kept (first :: rest).dropLast).1,
          Reply.array (answerAll c kept (first :: rest).dropLast).2) = _
        rw [← hrest, List.dropLast_concat]
    rw [hperform, inTurn_plain]

end Server

/-- A client and the server at the other end. -/
structure Link (S : Server) where
  server : S.State
  client : Connection

namespace Link

variable {S : Server}

def exchange (l : Link S) (c : Clock) (r : Request) : Link S × Result r.Answer :=
  match commands r with
  | [] =>
    let x := l.client.exchange r
    (⟨l.server, x.1⟩, x.2)
  | sent =>
    let y := S.perform c l.server sent
    let x := { l.client with pending := l.client.pending ++ [y.2] }.exchange r
    (⟨y.1, x.1⟩, x.2)

end Link

end SessionWatch.Storage.Redis
