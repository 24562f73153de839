import SessionWatch.Proofs.Holdings
import SessionWatch.Proofs.Server

/-!
The store in memory as a stand-in for a redis server. It logs the commands that a client would send, gives
the answers that the client would read off the replies, and holds what the server would hold.
-/

namespace SessionWatch.Storage

open Redis

theorem size_withAll (s : KeySet) (ks : List String) :
    (withAll s ks).size = s.size + (Memory.addKeys s ks).2 := by
  have hset : withAll s ks = (Memory.addKeys s ks).1 := (Memory.fst_addKeys s ks).symm
  rw [hset, Memory.size_addKeys]

/-! ### Commands -/

def Command.args : Command → List String
  | .time => ["TIME"]
  | .ping => ["PING"]
  | .append stream fields => ["XADD", stream, "*"] ++ fields.flatMap fun f => [f.1, f.2]
  | .set key value expiry =>
    ["SET", key, value] ++
      match expiry with
      | some ms => ["PX", Decimal.textOfNat ms]
      | none => []
  | .index key members => ["SADD", key] ++ members

namespace Request

/-- The commands of a request as they are sent: those of a batch in one transaction. -/
def sentAs : Request → List (List String)
  | .index set (r :: rs) =>
    ["MULTI"] :: ((Request.index set (r :: rs)).logged.map Command.args ++ [["EXEC"]])
  | r => r.logged.map Command.args

/-- Ids are left to the backend, entries have fields, and records expire after 1 to 2^62 milliseconds. -/
def Ordinary : Request → Prop
  | .append _ id fields => id = automaticId ∧ fields ≠ []
  | .index _ rs => ∀ r ∈ rs, ∀ ms, r.expiry = some ms → 0 < ms ∧ ms ≤ Server.longest
  | _ => True

/-- Both are successes, and the same but for the ids of entries. -/
def SameAnswer (r : Request) (x : Option (Result r.Answer)) (y : Result r.Answer) : Prop :=
  ∃ a b, x = some (.ok a) ∧ y = .ok b ∧ (r.operation ≠ .append → a = b)

end Request

theorem args_of_lasting {r : Record} (h : r.expiry = none) :
    r.command.args = ["SET", r.key, r.payload] := by
  simp [Record.command, Command.args, h]

theorem args_of_expiring {r : Record} {ms : ℕ} (h : r.expiry = some ms) :
    r.command.args = ["SET", r.key, r.payload, "PX", Decimal.textOfNat ms] := by
  simp [Record.command, Command.args, h]

theorem writes_args {r : Record} (h : ∀ ms, r.expiry = some ms → 0 < ms ∧ ms ≤ Server.longest) :
    Server.Writes r.command.args := by
  cases hexpiry : r.expiry with
  | none => exact args_of_lasting hexpiry ▸ .set r.key r.payload
  | some ms =>
    obtain ⟨hpos, hle⟩ := h ms hexpiry
    exact args_of_expiring hexpiry ▸ .setFor r.key r.payload hpos hle

theorem setCommand_eq {r : Record} (h : ∀ ms, r.expiry = some ms → 0 < ms ∧ ms ≤ Server.longest) :
    setCommand r = r.command.args := by
  cases hexpiry : r.expiry with
  | none => simp [setCommand, Record.command, Command.args, hexpiry]
  | some ms =>
    have hms : ms < UInt64.size := (h ms hexpiry).2.trans_lt (by decide)
    simp [setCommand, Record.command, Command.args, hexpiry, Nat.mod_eq_of_lt hms]

theorem commands_eq {r : Request} (h : r.Ordinary) : commands r = r.sentAs := by
  cases r with
  | time => rfl
  | ping => rfl
  | append stream id fields =>
    obtain ⟨rfl, -⟩ := h
    rfl
  | index set rs =>
    cases rs with
    | nil => rfl
    | cons r rs =>
      have hset : (r :: rs).map setCommand = (r :: rs).map (·.command.args) :=
        List.map_congr_left fun r hr => setCommand_eq (h r hr)
      rw [commands, hset, Request.sentAs, Request.logged, List.map_append, List.map_map,
        List.append_assoc]
      rfl

/-! ### One request -/

inductive Kind where
  | text | set | stream
  deriving DecidableEq

/-- Each key is used for things of its kind alone. -/
def Request.Respects (kind : String → Kind) : Request → Prop
  | .append stream _ _ => kind stream = .stream
  | .index set rs => rs ≠ [] → kind set = .set ∧ ∀ r ∈ rs, kind r.key = .text
  | _ => True

namespace Memory

def item? (m : Memory) (t : ℕ) (key : String) : Kind → Option Item
  | .text => (m.strings.get? key).bind (Item.ofStored? t)
  | .set => (m.sets.get? key).map .set
  | .stream => (m.streams.get? key).map fun es => .stream (es.map (·.fields))

theorem get?_eq (m : Memory) (c : Clock) (key : String) :
    m.get? c key = (m.item? c.monotonic key .text).bind fun x => match x with
      | .text value _ => some value
      | _ => none := by
  rw [get?, item?]
  rcases m.strings.get? key with _ | ⟨value, _ | d⟩
  · rfl
  · rfl
  · by_cases hd : c.monotonic < d <;> simp [Item.ofStored?, hd]

end Memory

/-- From a moment on a server holds what a store holds. -/
def Mirrors (S : Server) (kind : String → Kind) (t : ℕ) (m : Memory) (s : S.State) : Prop :=
  ∀ t', t ≤ t' → ∀ key, S.look s t' key = m.item? t' key (kind key)

namespace Mirrors

variable {S : Server} {kind : String → Kind} {c : Clock} {m m' : Memory} {s s' : S.State}

theorem later {t t' : ℕ} (h : Mirrors S kind t m s) (ht : t ≤ t') : Mirrors S kind t' m s :=
  fun u hu key => h u (ht.trans hu) key

theorem unchanged (h : Mirrors S kind c.monotonic m s) (hs : S.Unchanged c s s')
    (hm : ∀ t key k, m'.item? t key k = m.item? t key k) : Mirrors S kind c.monotonic m' s' :=
  fun t ht key => by rw [hs t ht, h t ht, hm]

theorem changed {key : String} {item : ℕ → Option Item} (h : Mirrors S kind c.monotonic m s)
    (hs : S.Changed c s s' key item)
    (hhere : ∀ t, c.monotonic ≤ t → m'.item? t key (kind key) = item t)
    (helsewhere : ∀ t k, k ≠ key → m'.item? t k (kind k) = m.item? t k (kind k)) :
    Mirrors S kind c.monotonic m' s' := by
  intro t ht k
  by_cases hk : k = key
  · subst hk
    rw [hs.here t ht, hhere t ht]
  · rw [hs.elsewhere t ht k hk, h t ht, helsewhere t k hk]

theorem put (hS : S.Standard) (h : Mirrors S kind c.monotonic m s) {r : Record}
    (hkind : kind r.key = .text) (hreach : r.InReach c)
    (hexpiry : ∀ ms, r.expiry = some ms → 0 < ms ∧ ms ≤ Server.longest) :
    (S.perform c s [r.command.args]).2 = .okay ∧
      Mirrors S kind c.monotonic (Memory.put c m r) (S.perform c s [r.command.args]).1 := by
  have helsewhere : ∀ t k, k ≠ r.key →
      (Memory.put c m r).item? t k (kind k) = m.item? t k (kind k) := by
    intro t k hk
    cases hkk : kind k with
    | text => simp [Memory.item?, Memory.put, Ne.symm hk]
    | set => rfl
    | stream => rfl
  have hhere : ∀ t, (Memory.put c m r).item? t r.key (kind r.key) =
      Item.ofStored? t ⟨r.payload, r.expiry.bind c.deadline?⟩ := by
    intro t
    simp [hkind, Memory.item?, Memory.put]
  cases hms : r.expiry with
  | none =>
    obtain ⟨hreply, hs⟩ := hS.set c s r.key r.payload
    rw [args_of_lasting hms]
    refine ⟨hreply, h.changed hs (fun t _ => ?_) helsewhere⟩
    rw [hhere, hms]
    rfl
  | some ms =>
    have hdeadline : c.deadline? ms = some (c.monotonic + ms) := by
      obtain ⟨d, hd⟩ := Option.isSome_iff_exists.1 (hreach ms hms)
      rw [Clock.deadline?] at hd ⊢
      split at hd
      · next hfits => rw [if_pos hfits]
      · cases hd
    obtain ⟨hpos, hle⟩ := hexpiry ms hms
    obtain ⟨hreply, hs⟩ := hS.setFor c s r.key r.payload ms hpos hle
    rw [args_of_expiring hms]
    refine ⟨hreply, h.changed hs (fun t _ => ?_) helsewhere⟩
    rw [hhere, hms, Option.bind_some, hdeadline]
    rfl

theorem append (hS : S.Standard) (h : Mirrors S kind c.monotonic m s) {stream : String}
    {fields : Fields} (hkind : kind stream = .stream) (hfields : fields ≠ []) :
    let x := S.perform c s [(Command.append stream fields).args]
    (∃ id, x.2 = .bulk id) ∧
      Mirrors S kind c.monotonic (m.append c.millis stream automaticId fields).1 x.1 := by
  have hlook : (S.look s c.monotonic stream).getD (.stream []) =
      .stream ((m.stream stream).map (·.fields)) := by
    rw [h _ le_rfl, hkind, Memory.item?, Memory.stream]
    cases m.streams.get? stream <;> rfl
  obtain ⟨hreply, hs⟩ := hS.xadd c s stream fields _ hfields hlook
  refine ⟨hreply, h.changed hs (fun t _ => ?_) fun t k hk => ?_⟩
  · simp [hkind, Memory.item?, Memory.append]
  · cases hkk : kind k with
    | text => rfl
    | set => rfl
    | stream => simp [Memory.item?, Memory.append, Memory.record, Ne.symm hk]

theorem addMembers (hS : S.Standard) (h : Mirrors S kind c.monotonic m s) {set : String}
    {keys : List String} (hkind : kind set = .set) (hkeys : keys ≠ []) :
    let x := S.perform c s [(Command.index set keys).args]
    x.2 = .int (.ofNat (Memory.addKeys (m.members set) keys).2) ∧
      Mirrors S kind c.monotonic (m.addMembers set keys).1 x.1 := by
  have hlook : (S.look s c.monotonic set).getD (.set ∅) = .set (m.members set) := by
    rw [h _ le_rfl, hkind, Memory.item?, Memory.members]
    cases m.sets.get? set <;> rfl
  obtain ⟨hreply, hs⟩ := hS.sadd c s set keys _ hkeys hlook
  rw [size_withAll, Nat.add_sub_cancel_left] at hreply
  refine ⟨hreply, h.changed hs (fun t _ => ?_) fun t k hk => ?_⟩
  · simp [hkind, Memory.item?, Memory.addMembers, Memory.fst_addKeys, withAll, Memory.members,
      Memory.record]
  · cases hkk : kind k with
    | text => rfl
    | set => simp [Memory.item?, Memory.addMembers, Memory.record, Ne.symm hk]
    | stream => rfl

theorem putAll (hS : S.Standard) (h : Mirrors S kind c.monotonic m s) {rs : List Record}
    (hrs : ∀ r ∈ rs, kind r.key = .text ∧ r.InReach c ∧
      ∀ ms, r.expiry = some ms → 0 < ms ∧ ms ≤ Server.longest) :
    let x := S.inTurn c s (rs.map (·.command.args))
    x.2 = List.replicate rs.length .okay ∧
      Mirrors S kind c.monotonic (Memory.putAll c m rs) x.1 := by
  induction rs generalizing m s with
  | nil => exact ⟨rfl, h⟩
  | cons r rs ih =>
    obtain ⟨hkind, hreach, hexpiry⟩ := hrs r (by simp)
    obtain ⟨hreply, hput⟩ := h.put hS hkind hreach hexpiry
    obtain ⟨hreplies, hputAll⟩ := ih hput fun r hr => hrs r (by simp [hr])
    refine ⟨?_, hputAll⟩
    show _ :: _ = _
    rw [hreply, hreplies]
    rfl

end Mirrors

theorem Server.inTurn_concat {S : Server} (c : Clock) (s : S.State) (commands : List (List String))
    (command : List String) : S.inTurn c s (commands ++ [command]) =
      ((S.perform c (S.inTurn c s commands).1 [command]).1,
        (S.inTurn c s commands).2 ++ [(S.perform c (S.inTurn c s commands).1 [command]).2]) := by
  induction commands generalizing s with
  | nil => rfl
  | cons first rest ih =>
    rw [List.cons_append, Server.inTurn, Server.inTurn, ih]
    rfl

theorem Redis.Reply.read?_transaction (set : String) (rs : List Record) (n : ℕ) :
    (Reply.array (List.replicate rs.length .okay ++ [.int (.ofNat n)])).read? (.index set rs) =
      some (.ofNat n) := by
  simp [read?, lastOf?, toUInt64?]

theorem Redis.Connection.exchange_of_reply {r : Request} {a : r.Answer} {reply : Reply}
    (name : String) (sent : List (List String)) (hsent : commands r ≠ [])
    (hread : reply.read? r = some a) :
    Connection.exchange ⟨name, [reply], sent⟩ r = (⟨name, [], sent ++ commands r⟩, .ok a) := by
  have hreceive : Connection.exchange ⟨name, [reply], sent⟩ r =
      Connection.receive ⟨name, [reply], sent⟩ r := by
    cases r with
    | index set rs =>
      cases rs with
      | nil => exact absurd rfl hsent
      | cons r rs => rfl
    | _ => rfl
  rw [hreceive]
  simp only [Connection.receive, hread]

theorem Redis.Link.exchange_of_reply {S : Server} {l : Link S} {c : Clock} {r : Request}
    {a : r.Answer} (hidle : l.client.pending = []) (hsent : commands r ≠ [])
    (hread : (S.perform c l.server (commands r)).2.read? r = some a) :
    l.exchange c r =
      (⟨(S.perform c l.server (commands r)).1,
        { l.client with sent := l.client.sent ++ commands r }⟩, .ok a) := by
  obtain ⟨server, name, pending, sent⟩ := l
  obtain rfl : pending = [] := hidle
  have hclient := Connection.exchange_of_reply name sent hsent hread
  rw [Link.exchange]
  split
  · next hnil => exact absurd hnil hsent
  · simp only [List.nil_append, hclient]

/-- The client of a server that holds what a store holds; nothing fails on either side. -/
structure StandsFor (S : Server) (kind : String → Kind) (t : ℕ) (m : Memory) (l : Link S) :
    Prop where
  healthy : m.failing = []
  idle : l.client.pending = []
  mirrors : Mirrors S kind t m l.server

namespace StandsFor

variable {S : Server} {kind : String → Kind} {t : ℕ} {c : Clock} {m : Memory} {l : Link S}

/-- What one request comes to on both sides. -/
structure Alike (S : Server) (kind : String → Kind) (c : Clock) (r : Request) (m : Memory) (l : Link S)
    (x : Memory × Option (Result r.Answer)) (y : Link S × Result r.Answer) : Prop where
  after : StandsFor S kind c.monotonic x.1 y.1
  answer : r.SameAnswer x.2 y.2
  logged : x.1.log = m.log ++ r.logged
  sent : y.1.client.sent = l.client.sent ++ r.sentAs

theorem of_reply (h : StandsFor S kind t m l) {r : Request} (hr : r.Ordinary)
    (hsent : commands r ≠ []) {x : Memory × Option (Result r.Answer)} {a b : r.Answer}
    (hhealthy : x.1.failing = []) (hx : x.2 = some (.ok a)) (hlog : x.1.log = m.log ++ r.logged)
    (hread : (S.perform c l.server (commands r)).2.read? r = some b)
    (hmirrors : Mirrors S kind c.monotonic x.1 (S.perform c l.server (commands r)).1)
    (hab : r.operation ≠ .append → a = b) : Alike S kind c r m l x (l.exchange c r) := by
  rw [Link.exchange_of_reply h.idle hsent hread]
  exact
    { after := ⟨hhealthy, h.idle, hmirrors⟩
      answer := ⟨a, b, hx, rfl, hab⟩
      logged := hlog
      sent := by rw [← commands_eq hr] }

theorem time (hS : S.Standard) (h : StandsFor S kind c.monotonic m l) :
    Alike S kind c .time m l (m.exchange c .time) (l.exchange c .time) := by
  obtain ⟨us, -, -, hreply, hs⟩ := hS.time c l.server
  have hread : (S.perform c l.server [["TIME"]]).2.read? .time = some c.seconds := by
    rw [hreply]
    simp [Reply.read?, Reply.seconds?, Reply.toInt64?, Decimal.textOfInt]
  rw [Memory.exchange_of_not_fails c (by simp [Memory.fails, h.healthy])]
  exact h.of_reply (r := .time) trivial (List.cons_ne_nil _ _) h.healthy rfl rfl hread
    (h.mirrors.unchanged hs fun _ _ k => by cases k <;> rfl) fun _ => rfl

theorem ping (hS : S.Standard) (h : StandsFor S kind c.monotonic m l) :
    Alike S kind c .ping m l (m.exchange c .ping) (l.exchange c .ping) := by
  obtain ⟨hreply, hs⟩ := hS.ping c l.server
  have hread : (S.perform c l.server [["PING"]]).2.read? .ping = some "PONG" := by
    rw [hreply]
    rfl
  rw [Memory.exchange_of_not_fails c (by simp [Memory.fails, h.healthy])]
  exact h.of_reply (r := .ping) trivial (List.cons_ne_nil _ _) h.healthy rfl rfl hread
    (h.mirrors.unchanged hs fun _ _ k => by cases k <;> rfl) fun _ => rfl

theorem append (hS : S.Standard) (h : StandsFor S kind c.monotonic m l) {stream : String}
    {fields : Fields} (hfields : fields ≠ []) (hkind : kind stream = .stream) :
    Alike S kind c (.append stream automaticId fields) m l
      (m.exchange c (.append stream automaticId fields))
      (l.exchange c (.append stream automaticId fields)) := by
  obtain ⟨⟨id, hreply⟩, hmirrors⟩ := h.mirrors.append hS hkind hfields
  have hread : (S.perform c l.server [(Command.append stream fields).args]).2.read?
      (.append stream automaticId fields) = some id := by
    rw [hreply]
    rfl
  rw [Memory.exchange_of_not_fails c (by simp [Memory.fails, h.healthy])]
  have hr : (Request.append stream automaticId fields).Ordinary := ⟨rfl, hfields⟩
  exact h.of_reply hr (List.cons_ne_nil _ _) h.healthy rfl rfl hread hmirrors
    fun hne => absurd rfl hne

theorem nothing (h : StandsFor S kind c.monotonic m l) (set : String) :
    Alike S kind c (.index set []) m l (m.exchange c (.index set []))
      (l.exchange c (.index set [])) := by
  rw [Memory.exchange_of_not_fails c (by simp [Memory.fails, h.healthy])]
  exact ⟨⟨h.healthy, h.idle, h.mirrors⟩, ⟨0, 0, rfl, rfl, fun _ => rfl⟩, (List.append_nil _).symm,
    (List.append_nil _).symm⟩

/-- A batch is one transaction, and only the reply to its last command is read. -/
theorem index (hS : S.Standard) (h : StandsFor S kind c.monotonic m l) {set : String}
    {r : Record} {rs : List Record} (hr : (Request.index set (r :: rs)).Ordinary)
    (hset : kind set = .set) (hkeys : ∀ x ∈ r :: rs, kind x.key = .text)
    (hreach : ∀ x ∈ r :: rs, x.InReach c) :
    Alike S kind c (.index set (r :: rs)) m l (m.exchange c (.index set (r :: rs)))
      (l.exchange c (.index set (r :: rs))) := by
  let written := Memory.putAll c m (r :: rs)
  let keys := (r :: rs).map (·.key)
  let sets := (r :: rs).map (·.command.args)
  obtain ⟨hreplies, hput⟩ := h.mirrors.putAll hS fun x hx => ⟨hkeys x hx, hreach x hx, hr x hx⟩
  have hkeysne : keys ≠ [] := List.cons_ne_nil _ _
  obtain ⟨hreply, hadd⟩ := hput.addMembers hS hset hkeysne
  have hcommands : commands (.index set (r :: rs)) =
      ["MULTI"] :: ((sets ++ [(Command.index set keys).args]) ++ [["EXEC"]]) := by
    rw [commands_eq hr, Request.sentAs, Request.logged, List.map_append, List.map_map]
    rfl
  have hwrites : ∀ command ∈ sets ++ [(Command.index set keys).args], Server.Writes command := by
    intro command hcommand
    rcases List.mem_append.1 hcommand with hcommand | hcommand
    · obtain ⟨x, hx, rfl⟩ := List.mem_map.1 hcommand
      exact writes_args (hr x hx)
    · rw [List.mem_singleton.1 hcommand]
      exact .sadd set hkeysne
  have hperform := hS.transaction c l.server _ hwrites
  rw [← hcommands, Server.inTurn_concat, hreplies, hreply] at hperform
  have hread : (S.perform c l.server (commands (.index set (r :: rs)))).2.read?
      (.index set (r :: rs)) = some (written.addMembers set keys).2 := by
    rw [hperform]
    exact Reply.read?_transaction set (r :: rs) _
  have hserve : m.exchange c (.index set (r :: rs)) =
      ((written.addMembers set keys).1, some (.ok (written.addMembers set keys).2)) := by
    rw [Memory.exchange_of_not_fails c (by simp [Memory.fails, h.healthy])]
    simp only [Memory.serve, Memory.writeAll_of_inReach hreach]
    rfl
  have hhealthy : (written.addMembers set keys).1.failing = [] := by
    rw [Memory.failing_addMembers, Memory.failing_putAll, h.healthy]
  have hlog : (written.addMembers set keys).1.log =
      m.log ++ (Request.index set (r :: rs)).logged := by
    show written.log ++ _ = _
    rw [Memory.log_putAll, List.append_assoc]
    rfl
  rw [hserve]
  refine h.of_reply hr (by rw [hcommands]; exact List.cons_ne_nil _ _) hhealthy rfl hlog hread ?_
    fun _ => rfl
  rw [hperform]
  exact hadd

theorem exchange (hS : S.Standard) (h : StandsFor S kind t m l) (ht : t ≤ c.monotonic)
    (hclock : (c.deadline? Server.longest).isSome) {r : Request} (hr : r.Ordinary)
    (hkind : r.Respects kind) : Alike S kind c r m l (m.exchange c r) (l.exchange c r) := by
  have hnow : StandsFor S kind c.monotonic m l := ⟨h.healthy, h.idle, h.mirrors.later ht⟩
  cases r with
  | time => exact hnow.time hS
  | ping => exact hnow.ping hS
  | append stream id fields =>
    obtain ⟨rfl, hfields⟩ := hr
    exact hnow.append hS hfields hkind
  | index set rs =>
    cases rs with
    | nil => exact hnow.nothing set
    | cons r rs =>
      obtain ⟨hset, hkeys⟩ := hkind (List.cons_ne_nil _ _)
      refine hnow.index hS hr hset hkeys fun x hx ms hms => ?_
      have hle := (hr x hx ms hms).2
      rw [Clock.deadline?] at hclock ⊢
      split at hclock
      · rw [if_pos (by omega)]
        rfl
      · cases hclock

end StandsFor

/-! ### Many requests -/

structure TimedRequest where
  clock : Clock
  request : Request

def Memory.afterAll (m : Memory) (calls : List TimedRequest) : Memory :=
  calls.foldl (fun m x => (m.exchange x.clock x.request).1) m

def Redis.Link.afterAll {S : Server} (l : Link S) (calls : List TimedRequest) : Link S :=
  calls.foldl (fun l x => (l.exchange x.clock x.request).1) l

namespace TimedRequest

/-- Calls of a kind that is made, on keys that are each used for things of one kind, as time goes on
and as long as the clock can show when texts expire. -/
structure AreOrdinary (kind : String → Kind) (t : ℕ) (calls : List TimedRequest) : Prop where
  ordinary : ∀ x ∈ calls, x.request.Ordinary
  respects : ∀ x ∈ calls, x.request.Respects kind
  inOrder : (t :: calls.map (·.clock.monotonic)).Pairwise (· ≤ ·)
  inReach : ∀ x ∈ calls, (x.clock.deadline? Server.longest).isSome

namespace AreOrdinary

variable {kind : String → Kind} {t : ℕ} {x : TimedRequest} {calls : List TimedRequest}

theorem tail (h : AreOrdinary kind t (x :: calls)) :
    AreOrdinary kind x.clock.monotonic calls where
  ordinary y hy := h.ordinary y (by simp [hy])
  respects y hy := h.respects y (by simp [hy])
  inOrder := (List.pairwise_cons.1 h.inOrder).2
  inReach y hy := h.inReach y (by simp [hy])

theorem head_le (h : AreOrdinary kind t (x :: calls)) : t ≤ x.clock.monotonic :=
  (List.pairwise_cons.1 h.inOrder).1 _ (by simp)

end AreOrdinary

end TimedRequest

namespace StandsFor

variable {S : Server} {kind : String → Kind} {t : ℕ} {m : Memory} {l : Link S}
  {calls : List TimedRequest}

theorem first (hS : S.Standard) (h : StandsFor S kind t m l) {x : TimedRequest}
    (hcalls : TimedRequest.AreOrdinary kind t (x :: calls)) :
    Alike S kind x.clock x.request m l (m.exchange x.clock x.request)
      (l.exchange x.clock x.request) :=
  h.exchange hS hcalls.head_le (hcalls.inReach x (by simp)) (hcalls.ordinary x (by simp))
    (hcalls.respects x (by simp))

theorem afterAll (hS : S.Standard) (h : StandsFor S kind t m l)
    (hcalls : TimedRequest.AreOrdinary kind t calls) {u : ℕ} (ht : t ≤ u)
    (hu : ∀ x ∈ calls, x.clock.monotonic ≤ u) :
    StandsFor S kind u (m.afterAll calls) (l.afterAll calls) ∧
      (m.afterAll calls).log = m.log ++ calls.flatMap (·.request.logged) ∧
      (l.afterAll calls).client.sent = l.client.sent ++ calls.flatMap (·.request.sentAs) := by
  induction calls generalizing t m l with
  | nil =>
    exact ⟨⟨h.healthy, h.idle, h.mirrors.later ht⟩, (List.append_nil _).symm,
      (List.append_nil _).symm⟩
  | cons x calls ih =>
    obtain ⟨hafter, -, hlogged, hsent⟩ := h.first hS hcalls
    obtain ⟨hstands, hlog, hsents⟩ := ih hafter hcalls.tail (hu x (by simp))
      fun y hy => hu y (by simp [hy])
    refine ⟨hstands, hlog.trans ?_, hsents.trans ?_⟩
    · rw [hlogged, List.flatMap_cons, List.append_assoc]
    · rw [hsent, List.flatMap_cons, List.append_assoc]

theorem answers (hS : S.Standard) (h : StandsFor S kind t m l)
    (hcalls : TimedRequest.AreOrdinary kind t calls) {before after : List TimedRequest} {x : TimedRequest}
    (hsplit : calls = before ++ x :: after) :
    x.request.SameAnswer ((m.afterAll before).exchange x.clock x.request).2
      ((l.afterAll before).exchange x.clock x.request).2 := by
  induction before generalizing t m l calls with
  | nil =>
    subst hsplit
    exact (h.first hS hcalls).answer
  | cons y before ih =>
    subst hsplit
    exact ih (h.first hS hcalls).after hcalls.tail rfl

end StandsFor

/-- A store that nobody makes fail stands in for a standard server: it logs the commands that the
client sends, batches being sent as transactions; it gives the same answers, ids of entries apart; and
from then on it holds the same texts for the same time, the same sets, and streams with the same
entries. -/
theorem memory_stands_in {S : Server} (hS : S.Standard) {kind : String → Kind} {t : ℕ} {m : Memory}
    {l : Link S} (h : StandsFor S kind t m l) {calls : List TimedRequest}
    (hcalls : TimedRequest.AreOrdinary kind t calls) :
    (m.afterAll calls).log = m.log ++ calls.flatMap (·.request.logged) ∧
    (l.afterAll calls).client.sent = l.client.sent ++ calls.flatMap (·.request.sentAs) ∧
    (∀ before x after, calls = before ++ x :: after →
      x.request.SameAnswer ((m.afterAll before).exchange x.clock x.request).2
        ((l.afterAll before).exchange x.clock x.request).2) ∧
    ∀ u, t ≤ u → (∀ x ∈ calls, x.clock.monotonic ≤ u) → ∀ key,
      S.look (l.afterAll calls).server u key = (m.afterAll calls).item? u key (kind key) := by
  have hlast : ∃ u, t ≤ u ∧ ∀ x ∈ calls, x.clock.monotonic ≤ u := by
    refine ⟨t + (calls.map (·.clock.monotonic)).sum, by omega, fun x hx => ?_⟩
    have hle := List.single_le_sum (fun _ _ => Nat.zero_le _) _
      (List.mem_map_of_mem (f := (·.clock.monotonic)) hx)
    omega
  obtain ⟨u, ht, hu⟩ := hlast
  obtain ⟨-, hlog, hsent⟩ := h.afterAll hS hcalls ht hu
  exact ⟨hlog, hsent, fun before x after hsplit => h.answers hS hcalls hsplit,
    fun u ht hu key => (h.afterAll hS hcalls ht hu).1.mirrors u le_rfl key⟩

namespace Sample

def kind (key : String) : Kind :=
  if key = "tasks" then .stream else if key = "labels" then .set else .text

/-- A batch with a repeated key, one with nothing in it, and one that gives a text another expiry. -/
def requests : List Request :=
  [.time, .ping, .append "tasks" automaticId [("TaskType", "EnqueueSession")],
    .index "labels" [⟨"a", "1", some 500⟩, ⟨"b", "2", none⟩, ⟨"a", "3", some 1000⟩],
    .index "labels" [], .index "labels" [⟨"b", "4", some 2000⟩, ⟨"c", "5", none⟩]]

end Sample

theorem memory_stands_in_sample :
    let m : Memory := { name := "mock" }
    let l : Link Server.plain := ⟨fun _ => none, ⟨"redis", [], []⟩⟩
    let calls := Sample.requests.map (TimedRequest.mk ⟨5000, 70⟩)
    Server.plain.Standard ∧ StandsFor Server.plain Sample.kind 0 m l ∧
      TimedRequest.AreOrdinary Sample.kind 0 calls ∧
      (l.afterAll calls).client.sent =
        [["TIME"], ["PING"], ["XADD", "tasks", "*", "TaskType", "EnqueueSession"],
          ["MULTI"], ["SET", "a", "1", "PX", "500"], ["SET", "b", "2"],
          ["SET", "a", "3", "PX", "1000"], ["SADD", "labels", "a", "b", "a"], ["EXEC"],
          ["MULTI"], ["SET", "b", "4", "PX", "2000"], ["SET", "c", "5"],
          ["SADD", "labels", "b", "c"], ["EXEC"]] ∧
      Server.plain.look (l.afterAll calls).server 80 "a" = some (.text "3" (some 990)) := by
  intro m l calls
  have hstands : StandsFor Server.plain Sample.kind 0 m l :=
    { healthy := rfl
      idle := rfl
      mirrors := fun t _ key => by cases Sample.kind key <;> rfl }
  have hcalls : TimedRequest.AreOrdinary Sample.kind 0 calls :=
    { ordinary := by simp [calls, Sample.requests, Request.Ordinary, Server.longest]
      respects := by simp [calls, Sample.requests, Request.Respects, Sample.kind]
      inOrder := by simp [calls, Sample.requests]
      inReach := by simp [calls, Sample.requests, Clock.deadline?, Server.longest, Clock.lastSecond] }
  obtain ⟨-, hsent, -, hlook⟩ := memory_stands_in Server.plain_standard hstands hcalls
  refine ⟨Server.plain_standard, hstands, hcalls, hsent.trans (by decide +kernel), ?_⟩
  rw [hlook 80 (by decide) (by simp [calls, Sample.requests])]
  rfl

end SessionWatch.Storage
