import Mathlib.Tactic
import SessionWatch.Proofs.Entries

/-!
What a store in memory makes of a request, and what it holds. A request has one of few outcomes; one
that is answered in success changes what is held in one way only, whatever the clocks show.
-/

namespace SessionWatch.Storage

def Record.command (r : Record) : Command := .set r.key r.payload r.expiry

def Request.logged : Request → List Command
  | .time => [.time]
  | .ping => [.ping]
  | .append stream _ fields => [.append stream fields]
  | .index _ [] => []
  | .index set (r :: rs) =>
    (r :: rs).map Record.command ++ [.index set ((r :: rs).map (·.key))]

/-- The clock can show when the record expires. -/
def Record.InReach (c : Clock) (r : Record) : Prop :=
  ∀ ms, r.expiry = some ms → (c.deadline? ms).isSome

namespace Memory

def put (c : Clock) (m : Memory) (r : Record) : Memory :=
  { m.record r.command with
      strings := m.strings.insert r.key ⟨r.payload, r.expiry.bind c.deadline?⟩ }

def putAll (c : Clock) (m : Memory) (rs : List Record) : Memory := rs.foldl (put c) m

@[simp] theorem putAll_nil (c : Clock) (m : Memory) : putAll c m [] = m := rfl

@[simp] theorem putAll_cons (c : Clock) (m : Memory) (r : Record) (rs : List Record) :
    putAll c m (r :: rs) = putAll c (put c m r) rs := rfl

theorem write?_of_inReach {c : Clock} {r : Record} (h : r.InReach c) (m : Memory) :
    m.write? c r = some (put c m r) := by
  cases hexpiry : r.expiry with
  | none => simp [write?, put, Record.command, hexpiry]
  | some ms =>
    obtain ⟨d, hd⟩ := Option.isSome_iff_exists.1 (h ms hexpiry)
    simp [write?, put, Record.command, hexpiry, hd]

theorem write?_of_not_inReach {c : Clock} {r : Record} (h : ¬ r.InReach c) (m : Memory) :
    m.write? c r = none := by
  simp only [Record.InReach, not_forall, Option.not_isSome_iff_eq_none] at h
  obtain ⟨ms, hexpiry, hd⟩ := h
  simp [write?, hexpiry, hd]

theorem writeAll_of_inReach {c : Clock} {rs : List Record} (h : ∀ r ∈ rs, r.InReach c)
    (m : Memory) : m.writeAll c rs = (putAll c m rs, true) := by
  induction rs generalizing m with
  | nil => rfl
  | cons r rs ih =>
    rw [writeAll, write?_of_inReach (h r (by simp))]
    exact ih (fun r hr => h r (by simp [hr])) _

theorem writeAll_of_broken {c : Clock} {done rest : List Record} {r : Record}
    (hdone : ∀ r ∈ done, r.InReach c) (hr : ¬ r.InReach c) (m : Memory) :
    m.writeAll c (done ++ r :: rest) = (putAll c m done, false) := by
  induction done generalizing m with
  | nil => rw [List.nil_append, writeAll, write?_of_not_inReach hr, putAll_nil]
  | cons d done ih =>
    rw [List.cons_append, writeAll, write?_of_inReach (hdone d (by simp))]
    exact ih (fun r hr => hdone r (by simp [hr])) _

theorem inReach_or_broken (c : Clock) (rs : List Record) : (∀ r ∈ rs, r.InReach c) ∨
    ∃ done r rest, rs = done ++ r :: rest ∧ (∀ r ∈ done, r.InReach c) ∧ ¬ r.InReach c := by
  induction rs with
  | nil => exact .inl (by simp)
  | cons r rs ih =>
    by_cases hr : r.InReach c
    · rcases ih with hall | ⟨done, b, rest, rfl, hdone, hb⟩
      · exact .inl (by simpa [hr] using hall)
      · exact .inr ⟨r :: done, b, rest, rfl, by simpa [hr] using hdone, hb⟩
    · exact .inr ⟨[], r, rs, rfl, by simp, hr⟩

theorem putAll_eq (c : Clock) (m : Memory) (rs : List Record) :
    putAll c m rs = { m with
      strings := (putAll c m rs).strings, log := m.log ++ rs.map Record.command } := by
  induction rs generalizing m with
  | nil => simp
  | cons r rs ih =>
    rw [putAll_cons, ih]
    simp [put, record]

@[simp] theorem log_putAll (c : Clock) (m : Memory) (rs : List Record) :
    (putAll c m rs).log = m.log ++ rs.map Record.command := by
  rw [putAll_eq]

@[simp] theorem failing_putAll (c : Clock) (m : Memory) (rs : List Record) :
    (putAll c m rs).failing = m.failing := by
  rw [putAll_eq]

/-- What can become of a request, and of the store in it. -/
inductive Outcome (m : Memory) (c : Clock) : (r : Request) → Memory × Option (Result r.Answer) → Prop
  | refused {r : Request} (e : Report) : m.fails r = true → Outcome m c r (m, some (.error e))
  | time : Outcome m c .time (m.record .time, some (.ok c.seconds))
  | ping : Outcome m c .ping (m.record .ping, some (.ok "PONG"))
  | append (stream id : String) (fields : Fields) :
      Outcome m c (.append stream id fields)
        ((m.append c.millis stream id fields).1,
          some (.ok (m.append c.millis stream id fields).2))
  | nothing (set : String) : Outcome m c (.index set []) (m, some (.ok 0))
  | index (set : String) {rs : List Record} : rs ≠ [] → (∀ r ∈ rs, r.InReach c) →
      Outcome m c (.index set rs)
        (((putAll c m rs).addMembers set (rs.map (·.key))).1,
          some (.ok ((putAll c m rs).addMembers set (rs.map (·.key))).2))
  /-- The process dies at a record that is out of reach; those before it are written. -/
  | broken (set : String) (done : List Record) (r : Record) (rest : List Record) :
      Outcome m c (.index set (done ++ r :: rest)) (putAll c m done, none)

theorem exchange_outcome (m : Memory) (c : Clock) (r : Request) : m.Outcome c r (m.exchange c r) := by
  cases hf : m.fails r with
  | true =>
    rw [exchange_of_fails c hf]
    exact .refused _ hf
  | false =>
    rw [exchange_of_not_fails c hf]
    cases r with
    | time => exact .time
    | ping => exact .ping
    | append stream id fields => exact .append stream id fields
    | index set rs =>
      cases rs with
      | nil => exact .nothing set
      | cons r rs =>
        simp only [serve]
        rcases inReach_or_broken c (r :: rs) with hall | ⟨done, b, rest, hrs, hdone, hb⟩
        · rw [writeAll_of_inReach hall]
          exact .index set (List.cons_ne_nil r rs) hall
        · rw [hrs, writeAll_of_broken hdone hb]
          exact .broken set done b rest

end Memory

/-! ### What is held -/

/-- What a store holds: the commands that it has carried out, the values of its strings, its sets, and
the fields of the entries in its streams. Ids and moments of expiry are left out. -/
structure Holding where
  log : List Command
  value? : String → Option String
  members : String → KeySet
  fields : String → List Fields

namespace Holding

/-- A command carried out that changes nothing. -/
def run (h : Holding) (c : Command) : Holding := { h with log := h.log ++ [c] }

def write (h : Holding) (r : Record) : Holding :=
  { h.run r.command with value? := Function.update h.value? r.key (some r.payload) }

def addMembers (h : Holding) (set : String) (keys : List String) : Holding :=
  { h.run (.index set keys) with
      members := Function.update h.members set
        (keys.foldl (fun s key => s.insert key ()) (h.members set)) }

def take (h : Holding) : Request → Holding
  | .time => h.run .time
  | .ping => h.run .ping
  | .append stream _ fields =>
    { h.run (.append stream fields) with
        fields := Function.update h.fields stream (h.fields stream ++ [fields]) }
  | .index _ [] => h
  | .index set (r :: rs) => ((r :: rs).foldl write h).addMembers set ((r :: rs).map (·.key))

end Holding

/-- At most one record is to be written. -/
def Request.IsSingle : Request → Prop
  | .index _ rs => rs.length ≤ 1
  | _ => True

theorem Request.IsSingle.eq_nil {set : String} {done rest : List Record} {r : Record}
    (h : (Request.index set (done ++ r :: rest)).IsSingle) : done = [] := by
  rw [IsSingle, List.length_append, List.length_cons] at h
  exact List.eq_nil_of_length_eq_zero (by omega)

namespace Memory

variable {m : Memory}

def holding (m : Memory) : Holding where
  log := m.log
  value? key := (m.strings.get? key).map (·.value)
  members := m.members
  fields key := (m.stream key).map (·.fields)

theorem holding_put (c : Clock) (m : Memory) (r : Record) :
    (put c m r).holding = m.holding.write r := by
  have hvalue : (put c m r).holding.value? = (m.holding.write r).value? := by
    funext key
    by_cases hk : key = r.key
    · subst hk
      simp [holding, put, Holding.write]
    · simp [holding, put, Holding.write, Function.update_of_ne hk, Ne.symm hk]
  exact congrArg (fun v => Holding.mk _ v _ _) hvalue

theorem holding_putAll (c : Clock) (m : Memory) (rs : List Record) :
    (putAll c m rs).holding = rs.foldl Holding.write m.holding := by
  induction rs generalizing m with
  | nil => rfl
  | cons r rs ih => rw [putAll_cons, ih, holding_put, List.foldl_cons]

theorem fst_addKeys (s : KeySet) (ks : List String) :
    (addKeys s ks).1 = ks.foldl (fun s k => s.insert k ()) s := by
  induction ks generalizing s with
  | nil => rfl
  | cons k ks ih => exact ih _

theorem size_addKeys (s : KeySet) (ks : List String) :
    (addKeys s ks).1.size = s.size + (addKeys s ks).2 := by
  induction ks generalizing s with
  | nil => rfl
  | cons k ks ih =>
    have hrest := ih (s.insert k ())
    rw [Table.size_insert] at hrest
    show (addKeys (s.insert k ()) ks).1.size =
      s.size + ((addKeys (s.insert k ()) ks).2 + if s.contains k then 0 else 1)
    omega

theorem holding_addMembers (m : Memory) (set : String) (keys : List String) :
    (m.addMembers set keys).1.holding = m.holding.addMembers set keys := by
  have hmembers : (m.addMembers set keys).1.members =
      (m.holding.addMembers set keys).members := by
    funext key
    by_cases hk : key = set
    · subst hk
      simp [addMembers, members, Holding.addMembers, holding, record, fst_addKeys]
    · simp [addMembers, members, Holding.addMembers, holding, Function.update_of_ne hk,
        Ne.symm hk, record]
  exact congrArg (fun v => Holding.mk _ _ v _) hmembers

theorem holding_append (m : Memory) (now : UInt64) (stream id : String) (fields : Fields) :
    (m.append now stream id fields).1.holding = m.holding.take (.append stream id fields) := by
  have hfields : (m.append now stream id fields).1.holding.fields =
      (m.holding.take (.append stream id fields)).fields := by
    funext key
    have hstream := m.stream_append now stream id fields key
    by_cases hk : key = stream
    · subst hk
      simpa [holding, Holding.take] using hstream
    · simpa [holding, Holding.take, Ne.symm hk, Function.update_of_ne hk] using hstream
  exact congrArg (Holding.mk _ _ _) hfields

/-- A request that succeeds is carried out; one that fails changes nothing that is held, and nor does
one on a single record in which the process dies. -/
theorem holding_exchange (c : Clock) {r : Request} (hr : r.IsSingle) :
    (m.exchange c r).1.holding =
      match (m.exchange c r).2 with
      | some (.ok _) => m.holding.take r
      | _ => m.holding := by
  have hout := m.exchange_outcome c r
  generalize m.exchange c r = x at hout
  cases hout with
  | refused e hf => rfl
  | time => rfl
  | ping => rfl
  | append stream id fields => exact m.holding_append c.millis stream id fields
  | nothing set => rfl
  | @index set rs hne hreach =>
    cases rs with
    | nil => exact absurd rfl hne
    | cons r rs =>
      rw [holding_addMembers, holding_putAll]
      rfl
  | broken set done r rest =>
    obtain rfl := hr.eq_nil
    rfl

end Memory

end SessionWatch.Storage
