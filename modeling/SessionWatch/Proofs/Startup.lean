import SessionWatch.Proofs.Keyspace
import SessionWatch.Proofs.Resolution
import SessionWatch.Proofs.StandIn

/-!
What a monitor that starts can rely on. Its settings were fit to start with, so it has a backend to
ask and names for its streams and its set; no request is ever put to no backend, and no command
names an empty stream or set.
-/

namespace SessionWatch

open Storage

/-! ### Streams and sets that commands name -/

namespace Storage

def Command.target? : Command → Option String
  | .append key _ | .index key _ => some key
  | _ => none

def Redis.target? : List String → Option String
  | "XADD" :: stream :: _ => some stream
  | "SADD" :: set :: _ => some set
  | _ => none

/-- The streams and sets that a backend was told of, the first of them first. -/
def Backend.targets : Backend → List String
  | .memory m => m.log.filterMap Command.target?
  | .redis c => c.sent.filterMap Redis.target?

def Request.targets : Request → List String
  | .append stream _ _ => [stream]
  | .index set (_ :: _) => [set]
  | _ => []

theorem Request.target?_logged (r : Request) : r.logged.filterMap Command.target? = r.targets := by
  cases r with
  | index set rs =>
    cases rs with
    | nil => rfl
    | cons r rs =>
      have hrecords : ((r :: rs).map Record.command).filterMap Command.target? = [] := by
        simp [List.filterMap_eq_nil_iff, Record.command, Command.target?]
      rw [logged, List.filterMap_append, hrecords]
      rfl
  | _ => rfl

theorem Redis.target?_commands (r : Request) :
    (commands r).filterMap target? = r.targets := by
  cases r with
  | index set rs =>
    cases rs with
    | nil => rfl
    | cons r rs =>
      have hrecords : ((r :: rs).map setCommand).filterMap target? = [] := by
        simp [List.filterMap_eq_nil_iff, setCommand, target?]
      rw [commands, List.filterMap_cons_none rfl, List.filterMap_append, hrecords]
      rfl
  | _ => rfl

theorem Backend.targets_carried (b : Backend) (c : Clock) {r : Request} (hr : r.IsSingle) :
    Carried (b.exchange c r).2 b.targets r.targets (b.exchange c r).1.targets := by
  cases b with
  | memory m =>
    have hlog := (m.log_carried c hr).filterMap Command.target?
    rwa [r.target?_logged] at hlog
  | redis s =>
    refine .inl ⟨rfl, ?_⟩
    simp only [Backend.exchange, Backend.targets, s.sent_exchange, List.filterMap_append,
      Redis.target?_commands]

def Ledger.targets : Ledger String where
  of := Backend.targets
  adds := Request.targets
  of_refusing b ops := by cases b <;> rfl
  of_exchange b c _ hr := b.targets_carried c hr

theorem Redis.target?_greeting (a : Redis.Address) : a.greeting.filterMap Redis.target? = [] := by
  unfold Address.greeting
  cases a.password <;> split <;> simp [Redis.target?]

end Storage

def World.targets (w : World) (i : ℕ) : List String := Ledger.targets.read w i

theorem Workplace.targets_of_mayAsk {w : Workplace} {f : Fact} {r : Request} {key : String}
    (h : w.MayAsk f r) (hkey : key ∈ r.targets) :
    key ∈ [w.labelsCache.setKey, w.streams.enqueue, w.streams.delete] := by
  cases f with
  | node change node =>
    cases change with
    | recordProvision =>
      obtain rfl : r = .time := h
      cases hkey
    | updateLabels =>
      obtain ⟨pool, -, rfl⟩ := h
      simp_all [Request.targets]
    | _ => exact h.elim
  | pod change pod =>
    cases change with
    | recordSchedule =>
      obtain rfl : r = .time := h
      cases hkey
    | delete =>
      rcases h with rfl | ⟨t, rfl⟩
      · cases hkey
      · simp_all [Request.targets]
    | ready =>
      rcases h with rfl | ⟨tn, tp, t, rfl⟩
      · cases hkey
      · simp_all [Request.targets]
    | add => exact h.elim
  | nodeWatchFailed message => exact h.elim
  | podWatchFailed message => exact h.elim

theorem Pipeline.on_targets {p : Pipeline} (hp : p.subscriptions = Handler.wired) (kind : Resource)
    (c : Cluster.Callback) :
    (p.on kind c).Only fun r => ∀ key ∈ r.targets,
      key ∈ [p.workplace.labelsCache.setKey, p.workplace.streams.enqueue,
        p.workplace.streams.delete] :=
  (on_only hp kind c).mono fun r hr key hkey => by
    obtain ⟨f, -, hmay⟩ := hr
    exact Workplace.targets_of_mayAsk hmay hkey

/-- In a run the backends are told of no streams and sets but those of the settings. -/
theorem Pipeline.targets_meetAll {p : Pipeline} (hp : p.subscriptions = Handler.wired) {w : World}
    {i : ℕ} (hw : w.targets i = []) (os : List Occasion) {key : String}
    (hkey : key ∈ (p.meetAll w os).targets i) :
    key ∈ [p.workplace.labelsCache.setKey, p.workplace.streams.enqueue,
      p.workplace.streams.delete] := by
  obtain ⟨new, hnew, hasked⟩ := exists_asked hp Ledger.targets w os i
  have hmem : key ∈ new := by
    have hfull : (p.meetAll w os).targets i = w.targets i ++ new := hnew
    rwa [hfull, hw, List.nil_append] at hkey
  obtain ⟨o, -, f, -, r, hmay, hadds⟩ := hasked key hmem
  exact Workplace.targets_of_mayAsk hmay hadds

/-! ### Requests that find a backend -/

abbrev Frame.noBackend : Frame := .cause (.storage .noBackend)

namespace Storage

theorem Memory.error_of_exchange {m : Memory} {c : Clock} {r : Request} {e : Report}
    (h : (m.exchange c r).2 = some (.error e)) : e = (failure m.name r).attach .failingMode := by
  cases hfails : m.fails r with
  | true =>
    rw [exchange_of_fails c hfails] at h
    cases h
    rfl
  | false =>
    have hout := m.exchange_outcome c r
    generalize m.exchange c r = x at hout h
    cases hout with
    | refused _ hrefused =>
      rw [hfails] at hrefused
      cases hrefused
    | _ => cases h

theorem Redis.Connection.error_of_exchange {s : Connection} {r : Request} {e : Report}
    (h : (s.exchange r).2 = .error e) : e = refusal s.name r := by
  unfold exchange at h
  split at h
  · cases h
  · unfold receive at h
    cases hpending : s.pending with
    | nil =>
      simp only [hpending] at h
      cases h
      rfl
    | cons reply rest =>
      simp only [hpending] at h
      split at h <;> cases h
      rfl

theorem Backend.noBackend_of_exchange {b : Backend} {c : Clock} {r : Request}
    {x : Result r.Answer} (h : (b.exchange c r).2 = some x) : Frame.noBackend ∉ framesOf x := by
  cases x with
  | ok a => exact nofun
  | error e =>
    cases b with
    | memory m =>
      rw [Memory.error_of_exchange h]
      simp [failure]
    | redis s =>
      rw [Redis.Connection.error_of_exchange (Option.some.inj h)]
      cases r <;> simp [Redis.refusal, Report.external]

theorem Judged.noBackend {α : Type} {as : List (Result α)} {x : Result α} (h : Judged as x)
    (hne : as ≠ []) (has : ∀ y ∈ as, Frame.noBackend ∉ framesOf y) :
    Frame.noBackend ∉ framesOf x := by
  by_cases hfail : ∃ y ∈ as, isFailure y = true
  · rw [h.somebody hfail]
    simpa using has
  · obtain ⟨a, rfl⟩ := h.exists_ok hne fun y hy =>
      Bool.eq_false_iff.2 fun hy' => hfail ⟨y, hy, hy'⟩
    exact nofun

theorem noBackend_fanOut {w w' : World} {ω ω' : Weather} (hw : w.backends ≠ []) {r : Request}
    {x : Result r.Answer}
    (h : (fanOut w.backends.length r).play ⟨w, ω⟩ = (⟨w', ω'⟩, some x)) :
    Frame.noBackend ∉ framesOf x := by
  obtain ⟨-, hanswers⟩ := fanOut_play r w ω
  rw [h] at hanswers
  obtain ⟨as, has, rfl⟩ := Option.map_eq_some_iff.1 hanswers.symm
  have hlength := length_of_answers? has
  rw [List.length_mapIdx] at hlength
  have hne : as ≠ [] := by
    rintro rfl
    exact hw (List.length_eq_zero_iff.1 hlength.symm)
  rw [← hlength]
  refine (Tally.judged_ofAnswers as).noBackend hne fun y hy => ?_
  have hmem : some y ∈ (w.backends.mapIdx fun i b => b.asked i (ω i) r).map (·.2) := by
    rw [answers?_eq_some_iff.1 has]
    exact List.mem_map_of_mem hy
  obtain ⟨b, hb, hasked⟩ := List.mem_map.1 hmem
  obtain ⟨i, hi, rfl⟩ := List.mem_mapIdx.1 hb
  exact Backend.noBackend_of_exchange hasked

end Storage

/-! ### Backends stay -/

theorem Scene.length_perform (c : Scene) (s : Step) :
    (c.perform s).1.world.backends.length = c.world.backends.length := by
  obtain ⟨w, ω⟩ := c
  rw [Scene.perform_eq]
  cases s with
  | exchange i r =>
    simp only [World.under_exchange]
    cases w.backends[i]? <;> simp
  | _ => rfl

theorem Plan.length_play {α : Type} (p : Plan α) (c : Scene) :
    (p.play c).1.world.backends.length = c.world.backends.length := by
  induction p generalizing c with
  | done a => rfl
  | step s next ih =>
    have hstep := c.length_perform s
    rw [play_step]
    rcases hs : c.perform s with ⟨c', _ | x⟩ <;> rw [hs] at hstep
    · exact hstep
    · exact (ih x c').trans hstep

namespace Plan

variable {α : Type} {n : ℕ}

/-- A plan that asks all `n` backends at a time, and whose every request finds them. Asking one is no
step of its own, so a request is passed as a fan-out alone. -/
inductive Attended (n : ℕ) : Plan α → Scene → Prop
  | done (a : α) (c : Scene) : Attended n (.done a) c
  | own {s : Step} {next : s.Answer → Plan α} {c : Scene} : s.IsOwn →
      (∀ c' x, c.perform s = (c', some x) → Attended n (next x) c') →
      Attended n (.step s next) c
  | all {r : Request} {f : Result r.Answer → Plan α} {c : Scene} :
      (∀ c' x, (fanOut n r).play c = (c', some x) → Frame.noBackend ∉ framesOf x) →
      (∀ c' x, (fanOut n r).play c = (c', some x) → Attended n (f x) c') →
      Attended n ((fanOut n r).bind f) c

theorem FansOut.attended {p : Plan α} (hp : p.FansOut n) {c : Scene}
    (hc : c.world.backends.length = n) (hn : n ≠ 0) : p.Attended n c := by
  induction hp generalizing c with
  | done a => exact .done a c
  | @own s next hs _ ih =>
    refine .own hs fun c' x hx => ih x ?_
    have hstep := c.length_perform s
    rw [hx] at hstep
    exact hstep.trans hc
  | @all r f _ _ ih =>
    refine .all (fun c' x hx => ?_) fun c' x hx => ih x ?_
    · subst hc
      exact noBackend_fanOut (fun hnil => hn (by simp [hnil])) hx
    · have hplay := (fanOut n r).length_play c
      rw [hx] at hplay
      exact hplay.trans hc

end Plan

namespace Pipeline

variable {p : Pipeline}

/-- In every callback of a run every request finds the backends. -/
def Attended (p : Pipeline) : World → List Occasion → Prop
  | _, [] => True
  | w, o :: os =>
    (p.on o.resource o.callback).Attended p.workplace.backends ⟨w, o.weather⟩ ∧
      Attended p (p.meet w o) os

theorem attended (hp : p.subscriptions = Handler.wired) {w : World}
    (hw : w.backends.length = p.workplace.backends) (hne : w.backends ≠ [])
    (os : List Occasion) : p.Attended w os := by
  induction os generalizing w with
  | nil => trivial
  | cons o os ih =>
    have hpos : p.workplace.backends ≠ 0 := fun hzero =>
      hne (List.length_eq_zero_iff.1 (hw.trans hzero))
    have hmeet : (p.meet w o).backends.length = w.backends.length :=
      Plan.length_play _ ⟨w, o.weather⟩
    refine ⟨(on_fansOut hp o).attended hw hpos, ih (hmeet.trans hw) fun hnil => hne ?_⟩
    rw [hnil] at hmeet
    exact List.length_eq_zero_iff.1 hmeet.symm

end Pipeline

/-! ### Opening the backends -/

namespace Storage.Redis

variable {name address : String} {o : DialOptions} {peer : Peer}

theorem error_of_dial {e : Report} (h : dial name address o peer = .error e) :
    ∃ a, e = dialFailure name a := by
  unfold dial at h
  cases haddress : Address.parse? address with
  | none =>
    rw [haddress] at h
    exact ⟨_, (Except.error.inj h).symm⟩
  | some a =>
    rw [haddress] at h
    cases peer with
    | absent => exact ⟨_, (Except.error.inj h).symm⟩
    | silent => exact ⟨_, (Except.error.inj h).symm⟩
    | answering replies => cases h

theorem targets_of_dial {c : Connection} (h : dial name address o peer = .ok c) :
    (Backend.redis c).targets = [] := by
  unfold dial at h
  split at h
  · cases h
  · next a _ =>
    split at h <;> cases h
    exact target?_greeting a

end Storage.Redis

namespace Settings

variable (s : Settings) (peerAt : String → Redis.Peer)

def Dialed (b : BackendSettings) (c : Redis.Connection) : Prop :=
  Redis.dial b.name b.address s.dialOptions (peerAt b.address) = .ok c

theorem dialAll_spec (bs : List BackendSettings) :
    ((s.dialAll peerAt bs).2 = none →
        List.Forall₂ (s.Dialed peerAt) bs (s.dialAll peerAt bs).1) ∧
      (∀ e, (s.dialAll peerAt bs).2 = some e → ∃ b ∈ bs,
        Redis.dial b.name b.address s.dialOptions (peerAt b.address) = .error e) ∧
      ∀ c ∈ (s.dialAll peerAt bs).1, (Backend.redis c).targets = [] := by
  induction bs with
  | nil => exact ⟨fun _ => .nil, nofun, nofun⟩
  | cons b bs ih =>
    obtain ⟨hall, hfails, htargets⟩ := ih
    rw [dialAll]
    cases hdial : Redis.dial b.name b.address s.dialOptions (peerAt b.address) with
    | error e =>
      refine ⟨nofun, ?_, nofun⟩
      rintro _ ⟨⟩
      exact ⟨b, by simp, hdial⟩
    | ok c =>
      refine ⟨fun hnone => .cons hdial (hall hnone), fun e he => ?_, ?_⟩
      · obtain ⟨b', hb', hdial'⟩ := hfails e he
        exact ⟨b', by simp [hb'], hdial'⟩
      · simpa using ⟨Redis.targets_of_dial hdial, htargets⟩

/-- What comes of opening the backends: the one in the process just if it is asked for, or else a
connection to each that is enabled in the order of the document, or the failure to connect to one of
these. -/
structure Opened (opened : List Backend × Option Report) : Prop where
  failed : ∀ e, opened.2 = some e → ∃ b ∈ s.redis.enabledBackends,
    Redis.dial b.name b.address s.dialOptions (peerAt b.address) = .error e ∧
      e.outermost? = some (.storage (.connectionFailed b.name))
  nonempty : opened.2 = none → opened.1 ≠ []
  mocked : opened = ([.memory { name := "mock" }], none) ↔ s.redis.mock = true
  connected : s.redis.mock = false → opened.2 = none → ∃ cs, opened.1 = cs.map .redis ∧
    List.Forall₂ (s.Dialed peerAt) s.redis.enabledBackends cs

variable {s}

theorem Fit.opened (hs : s.Fit) : s.Opened peerAt (s.openBackends peerAt) := by
  obtain ⟨hall, hfails, -⟩ := s.dialAll_spec peerAt s.redis.enabledBackends
  unfold openBackends
  cases hmock : s.redis.mock with
  | true =>
    simp only [if_true]
    exact ⟨nofun, nofun, iff_of_true rfl hmock, fun hoff => absurd hmock (by simp [hoff])⟩
  | false =>
    simp only [Bool.false_eq_true, if_false]
    refine ⟨fun e he => ?_, fun hnone hnil => ?_, iff_of_false (fun heq => ?_) (by simp [hmock]),
      fun _ hnone => ⟨_, rfl, hall hnone⟩⟩
    · obtain ⟨b, hb, hdial⟩ := hfails e he
      obtain ⟨a, rfl⟩ := Redis.error_of_dial hdial
      exact ⟨b, hb, hdial, rfl⟩
    · have hconnected := hall hnone
      rw [List.map_eq_nil_iff.1 hnil] at hconnected
      exact (hs.backends hmock).1 (List.forall₂_nil_right_iff.1 hconnected)
    · have hmem : Backend.memory { name := "mock" } ∈
          (s.dialAll peerAt s.redis.enabledBackends).1.map Backend.redis := by
        rw [(Prod.mk.inj heq).1]
        exact List.mem_singleton_self _
      simp at hmem

theorem Fit.ne_of_mem_ownKeys (hs : s.Fit) {key : String} (hkey : key ∈ s.ownKeys) : key ≠ "" := by
  have hrequired : ∃ f ∈ s.required, f.2 = key := by
    simp only [ownKeys, List.mem_cons, List.not_mem_nil, or_false] at hkey
    rcases hkey with rfl | rfl | rfl <;> simp [required]
  obtain ⟨f, hf, rfl⟩ := hrequired
  exact hs.keys f hf

theorem noBackend_of_openBackends {e : Report} (h : (s.openBackends peerAt).2 = some e) :
    Frame.noBackend ∉ e.frames := by
  unfold openBackends at h
  split at h
  · cases h
  · obtain ⟨b, -, hdial⟩ := (s.dialAll_spec peerAt s.redis.enabledBackends).2.1 e h
    obtain ⟨a, rfl⟩ := Redis.error_of_dial hdial
    simp [Redis.dialFailure, Report.external]

theorem targets_of_openBackends {b : Backend} (h : b ∈ (s.openBackends peerAt).1) :
    b.targets = [] := by
  unfold openBackends at h
  split at h
  · obtain rfl := List.mem_singleton.1 h
    rfl
  · obtain ⟨c, hc, rfl⟩ := List.mem_map.1 h
    exact (s.dialAll_spec peerAt s.redis.enabledBackends).2.2 c hc

end Settings

/-! ### Running -/

namespace World

def conditions (w : World) : Conditions :=
  ⟨w.clock, fun i =>
    match w.backends[i]? with
    | some (.memory m) => m.failing
    | _ => []⟩

theorem meets_conditions (w : World) : w.Meets w.conditions :=
  ⟨rfl, fun i m hm => by simp [conditions, hm]⟩

end World

theorem Plan.play_conditions {α : Type} (p : Plan α) (w : World) :
    ((p.play ⟨w, fun _ => w.conditions⟩).1.world, (p.play ⟨w, fun _ => w.conditions⟩).2) =
      p.run w := by
  rw [p.play_steady w w.meets_conditions]

namespace Application

variable (a : Application)

theorem callAll_run (p : Pipeline) (kind : Resource) (cs : List Cluster.Callback) (w : World) :
    ∃ os, ((callAll p kind cs).run w).1 = p.meetAll w os := by
  induction cs generalizing w with
  | nil => exact ⟨[], rfl⟩
  | cons c cs ih =>
    have hmeet : p.meet w ⟨kind, c, fun _ => w.conditions⟩ = ((p.on kind c).run w).1 :=
      congrArg Prod.fst ((p.on kind c).play_conditions w)
    have hrun : (callAll p kind (c :: cs)).run w =
        ((p.on kind c).bind fun _ => callAll p kind cs).run w := rfl
    rw [hrun, Plan.run_bind]
    rcases hc : (p.on kind c).run w with ⟨w', _ | x⟩ <;> rw [hc] at hmeet
    · exact ⟨[_], hmeet.symm⟩
    · obtain ⟨os, hos⟩ := ih w'
      exact ⟨⟨kind, c, fun _ => w.conditions⟩ :: os, by
        rw [Pipeline.meetAll_cons, hmeet]
        exact hos⟩

theorem hear_world (r : Running) (kind : Resource) (answer : Cluster.Response) :
    ∃ os, (a.hear r kind answer).1.world = a.pipeline.meetAll r.world os :=
  callAll_run a.pipeline kind _ r.world

theorem hearEach_world (r : Running) (script : List (Resource × Cluster.Response)) :
    ∃ os, (a.hearEach r script).world = a.pipeline.meetAll r.world os := by
  induction script generalizing r with
  | nil => exact ⟨[], rfl⟩
  | cons x xs ih =>
    obtain ⟨os, hos⟩ := a.hear_world r x.1 x.2
    obtain ⟨os', hos'⟩ := ih (a.hear r x.1 x.2).1
    refine ⟨os ++ os', ?_⟩
    rw [Pipeline.meetAll_append, ← hos]
    exact hos'

/-- Whatever the server says, a run of a monitor is a run of its callbacks. -/
theorem run_world (around : Surroundings) (w : World)
    (script : List (Resource × Cluster.Response)) :
    ∃ os, (a.run around w script).1.world = a.pipeline.meetAll w os := by
  obtain ⟨k, hk⟩ := a.run_eq_hearEach around w script
  rw [hk]
  exact a.hearEach_world { world := w } (script.take k)

end Application

def Failure.report : Failure → Report
  | .backends r | .repository r | .client r | .stopped r => r

/-- The world in which the backends have just been opened. -/
def Settings.opening (s : Settings) (around : Surroundings) (clock : Clock) : World :=
  { clock, backends := (s.openBackends around.peerAt).1 }

theorem Settings.targets_opening (s : Settings) (around : Surroundings) (clock : Clock) (i : ℕ) :
    (s.opening around clock).targets i = [] := by
  unfold World.targets Ledger.read
  cases hi : (s.opening around clock).backends[i]? with
  | none => rfl
  | some b => exact targets_of_openBackends around.peerAt (List.mem_of_getElem? hi)

namespace Application

variable {s : Settings} {around : Surroundings} {clock : Clock}

/-- A monitor is built on the answers to a ping, unless a backend cannot be opened. -/
theorem build_cases (s : Settings) (around : Surroundings) (clock : Clock) :
    (∃ e, (s.openBackends around.peerAt).2 = some e ∧
      build s around clock = (s.opening around clock, .error (.backends e))) ∨
    (s.openBackends around.peerAt).2 = none ∧
      ∃ w x, (fanOut (s.opening around clock).backends.length .ping).run
        (s.opening around clock) = (w, x) ∧
      build s around clock = (w,
        match x with
        | some (.ok _) =>
          .ok ⟨s, s.pipeline (s.opening around clock).backends.length Handler.wired⟩
        | some (.error r) => .error (.repository r)
        | none => .error (.repository .external)) := by
  cases hopened : (s.openBackends around.peerAt).2 with
  | some e => exact .inl ⟨e, rfl, by simp only [build, hopened, Settings.opening]⟩
  | none =>
    rcases hping : (fanOut (s.opening around clock).backends.length .ping).run
      (s.opening around clock) with ⟨w, x⟩
    refine .inr ⟨rfl, w, x, rfl, ?_⟩
    simp only [Settings.opening] at hping ⊢
    simp only [build, hopened, hping]
    rcases x with _ | _ | _ <;> rfl

theorem ping_spec {w w' : World} {x : Option (Result String)}
    (h : (fanOut w.backends.length .ping).run w = (w', x)) (hne : w.backends ≠ []) :
    w'.backends.length = w.backends.length ∧ (∀ i, w'.targets i = w.targets i) ∧
      ∀ y, x = some y → Frame.noBackend ∉ framesOf y := by
  have hplay := (fanOut w.backends.length .ping).play_steady w w.meets_conditions
  rw [h] at hplay
  refine ⟨?_, fun i => ?_, ?_⟩
  · have hlength := (fanOut w.backends.length .ping).length_play ⟨w, fun _ => w.conditions⟩
    rwa [hplay] at hlength
  · have hread := Ledger.targets.read_play_of_only i ⟨w, fun _ => w.conditions⟩
      (fanOut_isSingle (r := .ping) trivial w.backends.length)
      (fanOut_only (P := fun r => r.targets = []) rfl w.backends.length)
    rwa [hplay] at hread
  · rintro y rfl
    exact noBackend_fanOut hne hplay

theorem of_build_error (hs : s.Fit) {w : World} {f : Failure}
    (h : build s around clock = (w, .error f)) :
    Frame.noBackend ∉ f.report.frames ∧ ∀ i, w.targets i = [] := by
  have htargets := s.targets_opening around clock
  rcases build_cases s around clock with ⟨e, he, hbuild⟩ | ⟨hall, w', x, hping, hbuild⟩
  · cases hbuild.symm.trans h
    exact ⟨Settings.noBackend_of_openBackends around.peerAt he, htargets⟩
  · obtain ⟨-, hkept, hserved⟩ := ping_spec hping ((hs.opened around.peerAt).nonempty hall)
    rcases x with _ | r | y <;> cases hbuild.symm.trans h
    · exact ⟨by simp [Failure.report, Report.external], fun i => (hkept i).trans (htargets i)⟩
    · exact ⟨hserved _ rfl, fun i => (hkept i).trans (htargets i)⟩

theorem of_build_ok (hs : s.Fit) {w : World} {app : Application}
    (h : build s around clock = (w, .ok app)) :
    w.backends ≠ [] ∧ w.backends.length = (s.openBackends around.peerAt).1.length ∧
      app = ⟨s, s.pipeline w.backends.length Handler.wired⟩ ∧ ∀ i, w.targets i = [] := by
  rcases build_cases s around clock with ⟨e, he, hbuild⟩ | ⟨hall, w', x, hping, hbuild⟩
  · cases hbuild.symm.trans h
  · have hne : (s.opening around clock).backends ≠ [] := (hs.opened around.peerAt).nonempty hall
    obtain ⟨hlength, hkept, -⟩ := ping_spec hping hne
    rcases x with _ | r | y <;> cases hbuild.symm.trans h
    refine ⟨fun hnil => hne ?_, hlength, by rw [hlength],
      fun i => (hkept i).trans (s.targets_opening around clock i)⟩
    rw [hnil] at hlength
    exact List.length_eq_zero_iff.1 hlength.symm

end Application

/-- With settings that were accepted a monitor does not start without a backend: opening them fails,
or there are some and every request of every run is put to them. No request and no command names an
empty stream or set. What the command line puts in place counts, so the store in the process cannot
be turned off there unless the file enables a backend that has time to connect. -/
theorem accepted_start_is_served (file? : String → Option String) (a : RunArguments) :
    (∀ d, Settings.written file? a.config = .ok d → a.redisMock = some false →
      d.redis.enabledBackends = [] ∨ d.redis.connectTimeoutSecs = 0 →
      ∃ message, Settings.load file? a = .error (.of (.settings (.invalid message)))) ∧
    ∀ s, Settings.load file? a = .ok s → ∀ (around : Surroundings) (clock : Clock),
      (∃ d, Settings.written file? a.config = .ok d ∧ s = d.override a) ∧
      s.Opened around.peerAt (s.openBackends around.peerAt) ∧
      (∀ w f, Application.build s around clock = (w, .error f) →
        Frame.noBackend ∉ f.report.frames ∧ ∀ i, w.targets i = []) ∧
      ∀ w app, Application.build s around clock = (w, .ok app) →
        w.backends ≠ [] ∧
        w.backends.length = (s.openBackends around.peerAt).1.length ∧
        app = ⟨s, s.pipeline w.backends.length Handler.wired⟩ ∧
        (∀ kind c, (app.pipeline.on kind c).Only fun r =>
          ∀ key ∈ r.targets, key ∈ s.ownKeys ∧ key ≠ "") ∧
        (∀ script, ∃ os, (app.run around w script).1.world = app.pipeline.meetAll w os) ∧
        ∀ os, app.pipeline.Attended w os ∧
          ∀ i, ∀ key ∈ (app.pipeline.meetAll w os).targets i, key ∈ s.ownKeys ∧ key ≠ "" := by
  refine ⟨fun d hd hoff hunfit => ?_, fun s hload around clock => ?_⟩
  · cases hobjection : (d.override a).objection? with
    | some message => exact ⟨message, Settings.load_of_objection hd hobjection⟩
    | none =>
      have hfit := (Settings.objection?_eq_none_iff.1 hobjection).backends (by
        simp [Settings.override, hoff])
      rcases hunfit with hnone | hzero
      · exact absurd hnone hfit.1
      · exact absurd hzero hfit.2
  · obtain ⟨d, hd, hs, hobjection⟩ := Settings.load_eq_ok_iff.1 hload
    have hfit := Settings.objection?_eq_none_iff.1 hobjection
    refine ⟨⟨d, hd, hs⟩, hfit.opened around.peerAt,
      fun w f hbuild => Application.of_build_error hfit hbuild, fun w app hbuild => ?_⟩
    obtain ⟨hne, hlength, rfl, hfresh⟩ := Application.of_build_ok hfit hbuild
    refine ⟨hne, hlength, rfl, fun kind c => ?_, Application.run_world _ around w,
      fun os => ⟨Pipeline.attended rfl rfl hne os, fun i key hkey => ?_⟩⟩
    · refine (Pipeline.on_targets rfl kind c).mono fun r hr key hkey => ?_
      exact ⟨hr key hkey, hfit.ne_of_mem_ownKeys (hr key hkey)⟩
    · have hown := Pipeline.targets_meetAll rfl (hfresh i) os hkey
      exact ⟨hown, hfit.ne_of_mem_ownKeys hown⟩

namespace Sample

def remoteFile (path : String) : Option String :=
  if path = "remote" then
    some ("redis:\n  backends:\n  - name: first\n  - name: second\n    enabled: false\n" ++
      "  - name: third\n")
  else none

def remote : Settings :=
  { redis :=
      { backends :=
          [{ name := "first" }, { name := "second", enabled := false }, { name := "third" }] } }

def answering : Surroundings := { peerAt := fun _ => .answering [.simple "PONG"] }

def connected : World :=
  { clock := ⟨0, 0⟩
    backends :=
      [.redis ⟨"first", [], [["PING"]]⟩, .redis ⟨"third", [], [["PING"]]⟩] }

end Sample

theorem accepted_start_is_served_sample :
    (∃ message, Settings.load Sample.files { config := some "settings", redisMock := some false } =
      .error (.of (.settings (.invalid message)))) ∧
    Settings.load Sample.remoteFile { config := some "remote" } = .ok Sample.remote ∧
    Application.build Sample.remote Sample.answering ⟨0, 0⟩ =
      (Sample.connected, .ok ⟨Sample.remote, Sample.remote.pipeline 2 Handler.wired⟩) ∧
    (Sample.remote.pipeline 2 Handler.wired).Attended Sample.connected (Sample.naming "a") ∧
    ∀ key ∈ ((Sample.remote.pipeline 2 Handler.wired).meetAll Sample.connected
      (Sample.naming "a")).targets 1, key ≠ "" := by
  have hwritten : Settings.written Sample.files (some "settings") = .ok Sample.nameless := by
    decide +kernel
  have hrejected := (accepted_start_is_served Sample.files
    { config := some "settings", redisMock := some false }).1 _ hwritten rfl (.inl rfl)
  have hload : Settings.load Sample.remoteFile { config := some "remote" } = .ok Sample.remote := by
    decide +kernel
  have hbuild : Application.build Sample.remote Sample.answering ⟨0, 0⟩ =
      (Sample.connected, .ok ⟨Sample.remote, Sample.remote.pipeline 2 Handler.wired⟩) := rfl
  obtain ⟨-, -, -, hbuilt⟩ := (accepted_start_is_served Sample.remoteFile
    { config := some "remote" }).2 _ hload Sample.answering ⟨0, 0⟩
  obtain ⟨-, -, -, -, -, hruns⟩ := hbuilt _ _ hbuild
  obtain ⟨hattended, hkeys⟩ := hruns (Sample.naming "a")
  exact ⟨hrejected, hload, hbuild, hattended, fun key hkey => (hkeys 1 key hkey).2⟩

end SessionWatch
