import SessionWatch.Proofs.Requests

/-!
Tasks for the session queue. If a backend does not tell the time, the task is given up before
anything is written; otherwise every backend is told once to append it, and those that do not refuse
grow by just this entry, whatever the others do.
-/

namespace SessionWatch

open Session Storage

/-! ### Fan-outs that come to an end -/

theorem Plan.weather_play {α : Type} {p : Plan α} {c c' : Scene} {a : α}
    (h : p.play c = (c', some a)) :
    c'.weather = fun k => c.weather (k + (p.deeds c).length) := by
  induction p generalizing c with
  | done b =>
    obtain rfl := congrArg Prod.fst h
    rfl
  | step s next ih =>
    rw [play_step] at h
    rw [deeds_step]
    rcases hs : c.perform s with ⟨c₁, _ | x⟩ <;> rw [hs] at h
    · cases congrArg Prod.snd h
    · have hfirst : c₁.weather = fun k => c.weather (k + 1) := (congrArg (·.1.weather) hs).symm
      rw [ih x h, hfirst]
      funext k
      simp only [List.length_cons, Nat.add_assoc]

namespace Storage

theorem exists_answers?_of_isSome {β : Type} {xs : List (Backend × Option β)}
    (h : ∀ x ∈ xs, x.2.isSome) : ∃ as, answers? xs = some as := by
  induction xs with
  | nil => exact ⟨[], rfl⟩
  | cons x xs ih =>
    obtain ⟨a, ha⟩ := Option.isSome_iff_exists.1 (h x (by simp))
    obtain ⟨as, has⟩ := ih fun y hy => h y (by simp [hy])
    exact ⟨a :: as, by rw [answers?_cons_some ha, has]; rfl⟩

theorem fanOut_play_lasting {r : Request} (hr : r.Lasting) (w : World) (ω : Weather) :
    ∃ (v : World) (as : List (Result r.Answer)) (x : Result r.Answer),
      (fanOut w.backends.length r).play ⟨w, ω⟩ =
        (⟨v, fun k => ω (k + w.backends.length)⟩, some x) ∧
      v.cache = w.cache ∧
      v.backends = w.backends.mapIdx (fun i (b : Backend) => (b.asked i (ω i) r).1) ∧
      as.length = w.backends.length ∧
      (∀ (i : ℕ) (b : Backend), w.backends[i]? = some b → (b.asked i (ω i) r).2 = as[i]?) ∧
      Judged as x := by
  have hall : ∀ x ∈ w.backends.mapIdx fun i b => b.asked i (ω i) r, x.2.isSome := by
    intro x hx
    obtain ⟨i, hi, rfl⟩ := List.mem_mapIdx.1 hx
    exact Backend.answers_lasting _ i (ω i) hr
  obtain ⟨as, has⟩ := exists_answers?_of_isSome hall
  obtain ⟨hbackends, x, hx, hjudged⟩ := fanOut_play_answered has
  have hcache := (fanOut_ensures w.backends.length r w ω).cache
  rcases hplay : (fanOut w.backends.length r).play ⟨w, ω⟩ with ⟨⟨v, ω'⟩, y⟩
  rw [hplay] at hbackends hx hcache
  obtain rfl : y = some x := hx
  obtain ⟨as', hlength, hdeeds, -⟩ := fanOut_leads_iff.1 (Plan.leads_of_play hplay)
  have hweather : ω' = fun k => ω (k + w.backends.length) := by
    have htaken := Plan.weather_play hplay
    rw [hdeeds] at htaken
    simpa [asking, hlength] using htaken
  refine ⟨v, as, x, by rw [hweather], hcache, ?_, ?_, fun i b hb => ?_, hjudged⟩
  · exact hbackends.trans (List.ext_getElem? fun i => by simp [Function.comp_def])
  · simpa using length_of_answers? has
  · have hat := congrArg (·[i]?) (answers?_eq_some_iff.1 has)
    simp only [List.getElem?_map, List.getElem?_mapIdx, hb, Option.map_some] at hat
    cases ha : as[i]? with
    | none => simp [ha] at hat
    | some a => simpa [ha] using hat

end Storage

/-! ### One store in memory -/

namespace Storage

/-- One store is another with an entry more at the end of a stream, under the id that comes next. -/
structure Memory.GrownBy (m : Memory) (stream : String) (fields : Fields) (now : UInt64)
    (m' : Memory) : Prop where
  entry : m'.stream stream = m.stream stream ++ [⟨m'.lastId.text, fields⟩]
  others : ∀ key, key ≠ stream → m'.stream key = m.stream key
  lastId : m'.lastId = m.lastId.next now
  strings : m'.strings = m.strings
  sets : m'.sets = m.sets

theorem Memory.GrownBy.of_alike {m m' m'' : Memory} {stream : String} {fields : Fields}
    {now : UInt64} (h : m.Alike m') (hg : m'.GrownBy stream fields now m'') :
    m.GrownBy stream fields now m'' where
  entry := by rw [hg.entry, Memory.stream, Memory.stream, h.streams]
  others key hkey := by rw [hg.others key hkey, Memory.stream, Memory.stream, h.streams]
  lastId := by rw [hg.lastId, h.lastId]
  strings := hg.strings.trans h.strings.symm
  sets := hg.sets.trans h.sets.symm

theorem Memory.grownBy_append (m : Memory) (now : UInt64) (stream : String) (fields : Fields) :
    m.GrownBy stream fields now (m.append now stream automaticId fields).1 where
  entry := by simp [append, Memory.stream, record]
  others key hkey := by simp [append, Memory.stream, record, Ne.symm hkey]
  lastId := by simp [append]
  strings := rfl
  sets := rfl

namespace Backend

variable (m : Memory) (i : ℕ) (c : Conditions) {r : Request}

theorem asked_of_refused (h : r.operation ∈ c.refused i) :
    ∃ m' e, (Backend.memory m).asked i c r = (.memory m', some (.error e)) ∧ m.Alike m' := by
  have hfails : ({ m with failing := c.refused i } : Memory).fails r = true := by
    simpa [Memory.fails] using h
  refine ⟨{ m with failing := c.refused i }, (failure m.name r).attach .failingMode, ?_,
    rfl, rfl, rfl, rfl, rfl⟩
  simp only [asked, refusing, exchange, Memory.exchange_of_fails _ hfails]

theorem asked_of_not_refused (h : r.operation ∉ c.refused i) :
    (Backend.memory m).asked i c r =
      (.memory (({ m with failing := c.refused i } : Memory).serve c.clock r).1,
        (({ m with failing := c.refused i } : Memory).serve c.clock r).2) := by
  have hserves : ({ m with failing := c.refused i } : Memory).fails r = false := by
    simpa [Memory.fails] using h
  simp only [asked, refusing, exchange, Memory.exchange_of_not_fails _ hserves]

end Backend

/-! ### All stores in memory -/

/-- A request to stores in memory that is always answered: those that refuse it hold what they held,
the others do it. Together they answer as the last one does, unless one refuses. -/
structure CarriedOut (r : Request) (w : World) (ω : Weather) (v : World) (x : Result r.Answer) :
    Prop where
  length : v.backends.length = w.backends.length
  kept : ∀ (i : ℕ) (m : Memory), w.backends[i]? = some (.memory m) →
    r.operation ∈ (ω i).refused i → ∃ m', v.backends[i]? = some (.memory m') ∧ m.Alike m'
  done : ∀ (i : ℕ) (m : Memory), w.backends[i]? = some (.memory m) →
    r.operation ∉ (ω i).refused i →
      v.backends[i]? = some (.memory
        (({ m with failing := (ω i).refused i } : Memory).serve (ω i).clock r).1)
  failed : (∃ i < w.backends.length, r.operation ∈ (ω i).refused i) → ∃ e, x = .error e
  succeeded : ∀ m : Memory, w.backends[w.backends.length - 1]? = some (.memory m) →
    (∀ i < w.backends.length, r.operation ∉ (ω i).refused i) →
      some x = (({ m with failing := (ω (w.backends.length - 1)).refused (w.backends.length - 1) } :
        Memory).serve (ω (w.backends.length - 1)).clock r).2

end Storage

namespace World

variable {w : World}

theorem InMemory.exists_last (hw : w.InMemory) (hne : w.backends ≠ []) :
    ∃ m, w.backends[w.backends.length - 1]? = some (.memory m) := by
  have hlt : w.backends.length - 1 < w.backends.length := by
    have hpos := List.length_pos_of_ne_nil hne
    omega
  obtain ⟨m, hm⟩ := hw _ (List.getElem_mem hlt)
  exact ⟨m, by rw [List.getElem?_eq_getElem hlt, hm]⟩

theorem InMemory.fanOut_play (hw : w.InMemory) {r : Request} (hr : r.Lasting) (ω : Weather) :
    ∃ v x, (fanOut w.backends.length r).play ⟨w, ω⟩ =
        (⟨v, fun k => ω (k + w.backends.length)⟩, some x) ∧
      v.cache = w.cache ∧ CarriedOut r w ω v x := by
  obtain ⟨v, as, x, hplay, hcache, hbackends, hlength, hanswers, hjudged⟩ :=
    fanOut_play_lasting hr w ω
  have hat : ∀ (i : ℕ) (b : Backend), w.backends[i]? = some b → ∃ a, as[i]? = some a ∧
      (isFailure a = true ↔ r.operation ∈ (ω i).refused i) := by
    intro i b hb
    obtain ⟨m, rfl⟩ := hw b (List.mem_of_getElem? hb)
    rw [← hanswers i _ hb]
    by_cases h : r.operation ∈ (ω i).refused i
    · obtain ⟨m', e, hasked, -⟩ := Backend.asked_of_refused m i (ω i) h
      exact ⟨_, by rw [hasked], by simpa using h⟩
    · obtain ⟨a, ha⟩ := Memory.serve_lasting { m with failing := (ω i).refused i } (ω i).clock hr
      exact ⟨_, by rw [Backend.asked_of_not_refused m i (ω i) h, ha], by simpa using h⟩
  refine ⟨v, x, hplay, hcache, ?_, fun i m hm h => ?_, fun i m hm h => ?_, ?_, ?_⟩
  · rw [hbackends, List.length_mapIdx]
  · obtain ⟨m', e, hasked, halike⟩ := Backend.asked_of_refused m i (ω i) h
    exact ⟨m', by rw [hbackends, List.getElem?_mapIdx, hm, Option.map_some, hasked], halike⟩
  · rw [hbackends, List.getElem?_mapIdx, hm, Option.map_some, Backend.asked_of_not_refused m i _ h]
  · rintro ⟨i, hi, h⟩
    obtain ⟨a, ha, hiff⟩ := hat i _ (List.getElem?_eq_getElem hi)
    exact ⟨_, hjudged.somebody ⟨a, List.mem_of_getElem? ha, hiff.2 h⟩⟩
  · intro m hm hopen
    have hlast := hopen (w.backends.length - 1) (List.getElem?_eq_some_iff.1 hm).1
    obtain ⟨a, ha⟩ := Memory.serve_lasting
      { m with failing := (ω (w.backends.length - 1)).refused (w.backends.length - 1) }
      (ω (w.backends.length - 1)).clock hr
    rw [ha]
    refine congrArg some ((hjudged.everybody a).2 ⟨fun y hy => ?_, ?_⟩)
    · obtain ⟨i, hi, rfl⟩ := List.getElem_of_mem hy
      have hi' : i < w.backends.length := hlength ▸ hi
      obtain ⟨a', ha', hiff⟩ := hat i _ (List.getElem?_eq_getElem hi')
      obtain rfl := Option.some.inj ((List.getElem?_eq_getElem hi).symm.trans ha')
      exact Bool.eq_false_iff.2 fun hfails => hopen i hi' (hiff.1 hfails)
    · rw [List.getLast?_eq_getElem?, hlength, ← hanswers _ _ hm,
        Backend.asked_of_not_refused m _ _ hlast, ha]

def Holds (w v : World) : Prop :=
  ∀ (i : ℕ) (m : Memory), w.backends[i]? = some (.memory m) →
    ∃ m', v.backends[i]? = some (.memory m') ∧ m.Alike m'

end World

namespace Storage.CarriedOut

variable {w v : World} {ω : Weather}

theorem inMemory {r : Request} {x : Result r.Answer} (h : CarriedOut r w ω v x) (hw : w.InMemory) :
    v.InMemory := by
  intro b hb
  obtain ⟨i, hi, rfl⟩ := List.getElem_of_mem hb
  have hi' : i < w.backends.length := h.length ▸ hi
  obtain ⟨m, hm⟩ := hw _ (List.getElem_mem hi')
  have hstore : w.backends[i]? = some (.memory m) := by rw [List.getElem?_eq_getElem hi', hm]
  by_cases hrefused : r.operation ∈ (ω i).refused i
  · obtain ⟨m', hm', -⟩ := h.kept i m hstore hrefused
    exact ⟨m', (List.getElem?_eq_some_iff.1 hm').2⟩
  · exact ⟨_, (List.getElem?_eq_some_iff.1 (h.done i m hstore hrefused)).2⟩

theorem holds_of_time {x : Result Int64} (h : CarriedOut .time w ω v x) : w.Holds v := by
  intro i m hm
  by_cases hrefused : .time ∈ (ω i).refused i
  · exact h.kept i m hm hrefused
  · exact ⟨_, h.done i m hm hrefused, rfl, rfl, rfl, rfl, rfl⟩

theorem grown_of_append {stream : String} {fields : Fields} {x : Result String}
    (h : CarriedOut (.append stream automaticId fields) w ω v x) {i : ℕ} {m : Memory}
    (hm : w.backends[i]? = some (.memory m)) (hopen : .append ∉ (ω i).refused i) :
    ∃ m', v.backends[i]? = some (.memory m') ∧
      m.GrownBy stream fields (ω i).clock.millis m' := by
  let start : Memory := { m with failing := (ω i).refused i }
  have halike : m.Alike start := ⟨rfl, rfl, rfl, rfl, rfl⟩
  exact ⟨_, h.done i m hm hopen, (start.grownBy_append _ stream fields).of_alike halike⟩

end Storage.CarriedOut

/-! ### A task for the queue -/

namespace Session

/-- A task is given up: the backends were asked for nothing but the time, they hold what they held,
and the failure is that of the session layer. -/
structure GivenUp (w v : World) (x : Result String) (ds : List Deed) : Prop where
  asked : ∀ i < w.backends.length, requestsTo i ds = [.time]
  kept : w.Holds v
  failed : ∃ r, x = .error r ∧ r.outermost? = some (.session .storage)

/-- A task is submitted: every backend was told once to append it, those that did not refuse grew by
it alone and the others hold what they held. All is well if none refused, and then the id is that
which the last one gave. -/
structure Submitted (w : World) (ω : Weather) (stream : String) (fields : Fields) (v : World)
    (x : Result String) (ds : List Deed) : Prop where
  asked : ∀ i < w.backends.length, requestsTo i ds = [.time, .append stream automaticId fields]
  kept : ∀ (i : ℕ) (m : Memory), w.backends[i]? = some (.memory m) →
    .append ∈ (ω (w.backends.length + i)).refused i →
      ∃ m', v.backends[i]? = some (.memory m') ∧ m.Alike m'
  grown : ∀ (i : ℕ) (m : Memory), w.backends[i]? = some (.memory m) →
    .append ∉ (ω (w.backends.length + i)).refused i →
      ∃ m', v.backends[i]? = some (.memory m') ∧
        m.GrownBy stream fields (ω (w.backends.length + i)).clock.millis m'
  failed : (∃ i < w.backends.length, .append ∈ (ω (w.backends.length + i)).refused i) →
    ∃ r, x = .error r ∧ r.outermost? = some (.session .storage)
  succeeded : (∀ i < w.backends.length, .append ∉ (ω (w.backends.length + i)).refused i) →
    ∃ m', v.backends[w.backends.length - 1]? = some (.memory m') ∧ x = .ok m'.lastId.text

/-- A task either is given up or is submitted, as the backends tell the time or do not. -/
structure GivenUpOrSubmitted (w : World) (ω : Weather) (stream : String) (fields : Fields)
    (v : World) (x : Result String) (ds : List Deed) : Prop where
  givenUp : (∃ i < w.backends.length, .time ∈ (ω i).refused i) → GivenUp w v x ds
  submitted : (∀ i < w.backends.length, .time ∉ (ω i).refused i) →
    Submitted w ω stream fields v x ds

variable {w : World}

theorem GivenUpOrSubmitted.congr {ω : Weather} {stream : String} {fields : Fields} {v v' : World}
    {x : Result String} {ds ds' : List Deed} (h : GivenUpOrSubmitted w ω stream fields v x ds)
    (hv : v'.backends = v.backends) (hds : ∀ i, requestsTo i ds' = requestsTo i ds) :
    GivenUpOrSubmitted w ω stream fields v' x ds' where
  givenUp hrefused := by
    obtain ⟨hasked, hkept, hfailed⟩ := h.givenUp hrefused
    exact ⟨fun i hi => (hds i).trans (hasked i hi), by rwa [World.Holds, hv], hfailed⟩
  submitted htimely := by
    obtain ⟨hasked, hkept, hgrown, hfailed, hsucceeded⟩ := h.submitted htimely
    refine ⟨fun i hi => (hds i).trans (hasked i hi), ?_, ?_, hfailed, ?_⟩
    all_goals rwa [hv]

theorem submitted_of_told {ω : Weather} {v₁ v : World} {stream : String} {fields : Fields}
    {a x : Result String} {ds : List Deed} (hw : w.InMemory) (hne : w.backends ≠ [])
    (hheld : w.Holds v₁) (hlength : v₁.backends.length = w.backends.length)
    (happended : CarriedOut (.append stream automaticId fields) v₁
      (fun k => ω (w.backends.length + k)) v a)
    (hasked : ∀ i < w.backends.length,
      requestsTo i ds = [.time, .append stream automaticId fields])
    (hx : x = (a.because (.session .storage)).attach (.stream stream)) :
    Submitted w ω stream fields v x ds where
  asked := hasked
  kept i m hm hrefused := by
    obtain ⟨m₁, hm₁, halike⟩ := hheld i m hm
    obtain ⟨m', hm', hkept⟩ := happended.kept i m₁ hm₁ hrefused
    exact ⟨m', hm', halike.trans hkept⟩
  grown i m hm hopen := by
    obtain ⟨m₁, hm₁, halike⟩ := hheld i m hm
    obtain ⟨m', hm', hgrown⟩ := happended.grown_of_append hm₁ hopen
    exact ⟨m', hm', hgrown.of_alike halike⟩
  failed hrefused := by
    obtain ⟨e, rfl⟩ := happended.failed (hlength ▸ hrefused)
    exact ⟨_, hx, rfl⟩
  succeeded hopen := by
    obtain ⟨m, hm⟩ := hw.exists_last hne
    obtain ⟨m₁, hm₁, -⟩ := hheld _ m hm
    rw [← hlength] at hm₁ hopen
    have hlast := (List.getElem?_eq_some_iff.1 hm₁).1
    obtain rfl := Option.some.inj (happended.succeeded m₁ hm₁ (by rwa [hlength] at hopen ⊢))
    rw [← hlength]
    exact ⟨_, happended.done _ m₁ hm₁ (by rw [← hlength]; exact hopen _ hlast), hx⟩

theorem push_eq (n : ℕ) (stream : String) (kind : TaskKind) (info : String) :
    push n stream kind info = (fanOut n .time).bind fun told =>
      match told with
      | .error r => .done (.error (r.because (.session .storage)))
      | .ok t =>
        (fanOut n (.append stream automaticId (Task.mk kind info t).fields)).bind fun a =>
          .done (Result.attach (Result.because a (.session .storage)) (.stream stream)) := by
  unfold push
  refine congrArg _ (funext fun told => ?_)
  cases told with
  | error r => rfl
  | ok t =>
    refine congrArg (Plan.bind _) (funext fun a => ?_)
    cases a <;> rfl

theorem push_play (hw : w.InMemory) (hne : w.backends ≠ []) (ω : Weather) (stream : String)
    (kind : TaskKind) (info : String) :
    ∃ v ω' x, (push w.backends.length stream kind info).play ⟨w, ω⟩ = (⟨v, ω'⟩, some x) ∧
      v.cache = w.cache ∧
      GivenUpOrSubmitted w ω stream
        (Task.mk kind info (ω (w.backends.length - 1)).clock.seconds).fields v x
        ((push w.backends.length stream kind info).deeds ⟨w, ω⟩) := by
  obtain ⟨v₁, y, hplay₁, hcache₁, htold⟩ := hw.fanOut_play (r := .time) trivial ω
  have hasked : ∀ i < w.backends.length,
      requestsTo i ((fanOut w.backends.length .time).deeds ⟨w, ω⟩) = [.time] :=
    fun i hi => requestsTo_fanOut_lasting (r := .time) trivial hi _
  rw [push_eq, Plan.play_bind_of_some hplay₁, Plan.deeds_bind_of_some hplay₁]
  obtain ⟨m, hm⟩ := hw.exists_last hne
  cases y with
  | error r =>
    refine ⟨v₁, _, _, rfl, hcache₁, fun _ => ?_, fun h => ?_⟩
    · refine ⟨fun i hi => ?_, htold.holds_of_time, _, rfl, rfl⟩
      rw [requestsTo_append, hasked i hi]
      rfl
    · cases htold.succeeded m hm h
  | ok t =>
    let r : Request := .append stream automaticId (Task.mk kind info t).fields
    have hwritten : ∀ i < w.backends.length, ∀ c,
        requestsTo i ((fanOut w.backends.length r).deeds c) = [r] :=
      fun i hi => requestsTo_fanOut_lasting (r := r) trivial hi
    obtain ⟨v, a, hplay, hcache, happended⟩ := (htold.inMemory hw).fanOut_play (r := r) trivial
      (fun k => ω (k + w.backends.length))
    simp only [htold.length, Nat.add_comm _ w.backends.length] at hplay happended
    simp only [Nat.add_comm _ w.backends.length, Plan.play_bind_done, Plan.deeds_bind_done]
    refine ⟨v, _, _, by rw [hplay]; rfl, hcache.trans hcache₁, fun h => ?_, fun h => ?_⟩
    · obtain ⟨e, he⟩ := htold.failed h
      cases he
    · cases htold.succeeded m hm h
      refine submitted_of_told hw hne htold.holds_of_time htold.length happended
        (fun i hi => ?_) rfl
      rw [requestsTo_append, hasked i hi, hwritten i hi]
      rfl

theorem setDeletable_play (hw : w.InMemory) (hne : w.backends ≠ []) (ω : Weather)
    (streams : Streams) (d : Deletable) :
    ∃ v ω' x, (setDeletable w.backends.length streams d).play ⟨w, ω⟩ = (⟨v, ω'⟩, some x) ∧
      v.cache = (if isFailure x then w.cache else w.cache.erase (podKey d.sessionId)) ∧
      GivenUpOrSubmitted w ω streams.delete
        (Task.mk .delete d.encode (ω (w.backends.length - 1)).clock.seconds).fields v x
        ((setDeletable w.backends.length streams d).deeds ⟨w, ω⟩) := by
  obtain ⟨v, ω', x, hplay, hcache, hends⟩ := push_play hw hne ω streams.delete .delete d.encode
  unfold setDeletable
  rw [Plan.bind_eq, Plan.play_bind_of_some hplay, Plan.deeds_bind_of_some hplay]
  cases x with
  | error r =>
    refine ⟨v, ω', .error r, rfl, hcache, hends.congr rfl fun i => ?_⟩
    rw [requestsTo_append]
    exact List.append_nil _
  | ok id =>
    refine ⟨_, _, .ok id, rfl, congrArg (·.erase (podKey d.sessionId)) hcache, ?_⟩
    refine hends.congr rfl fun i => ?_
    rw [requestsTo_append]
    exact List.append_nil _

end Session

/-- Over stores in memory, whatever each of them refuses whenever it is asked: if some store does
not tell the time, a task is given up before anything is written, and otherwise every store is told
once to append it, stamped with the time that the last one told. The times that the sessions
remember stay, but for that of a session whose deletion is written everywhere. -/
theorem tasks_given_up_or_submitted {w : World} (hw : w.InMemory) (hne : w.backends ≠ [])
    (ω : Weather) (streams : Streams) :
    let n := w.backends.length
    let created := Decimal.textOfInt (ω (n - 1)).clock.seconds.toInt
    (∀ r : Ready, ∃ v ω' x,
      (setReady n streams r).play ⟨w, ω⟩ = (⟨v, ω'⟩, some x) ∧
      v.cache = w.cache ∧
      GivenUpOrSubmitted w ω streams.enqueue
        [("TaskType", "EnqueueSession"), ("TaskInfo", r.encode), ("TaskCreateTimeStamp", created)]
        v x ((setReady n streams r).deeds ⟨w, ω⟩)) ∧
    ∀ d : Deletable, ∃ v ω' x,
      (setDeletable n streams d).play ⟨w, ω⟩ = (⟨v, ω'⟩, some x) ∧
      v.cache = (if isFailure x then w.cache else w.cache.erase (podKey d.sessionId)) ∧
      GivenUpOrSubmitted w ω streams.delete
        [("TaskType", "DeleteSession"), ("TaskInfo", d.encode), ("TaskCreateTimeStamp", created)]
        v x ((setDeletable n streams d).deeds ⟨w, ω⟩) := by
  intro n created
  exact ⟨fun r => push_play hw hne ω streams.enqueue .enqueue r.encode,
    fun d => setDeletable_play hw hne ω streams d⟩

def Sample.halfOpen : Weather :=
  fun _ => ⟨⟨7000, 0⟩, fun i => if i = 1 then [.append] else []⟩

/-- A deletion that one of two stores takes is reported as failed, and the session is kept. -/
theorem tasks_given_up_or_submitted_sample :
    let w : World := { Sample.world with cache := .ofList [(podKey "s1", 3)] }
    let ended := (setDeletable 2 ⟨"ready", "gone"⟩ ⟨"s1"⟩).play ⟨w, Sample.halfOpen⟩
    w.InMemory ∧ w.backends ≠ [] ∧
      (∀ i < 2, .time ∉ (Sample.halfOpen i).refused i) ∧
      (∃ r, ended.2 = some (.error r) ∧ r.outermost? = some (.session .storage)) ∧
      ended.1.world.cache = w.cache ∧
      (∃ m, ended.1.world.backends[0]? = some (.memory m) ∧
        m.stream "gone" = [⟨"7000-0", [("TaskType", "DeleteSession"),
          ("TaskInfo", Deletable.encode ⟨"s1"⟩), ("TaskCreateTimeStamp", "7")]⟩]) ∧
      ∃ m, ended.1.world.backends[1]? = some (.memory m) ∧ m.stream "gone" = [] := by
  intro w ended
  have hw : w.InMemory := by simp [World.InMemory, w, Sample.world]
  have hne : w.backends ≠ [] := by simp [w, Sample.world]
  have htimely : ∀ i < 2, .time ∉ (Sample.halfOpen i).refused i := by decide
  obtain ⟨v, ω', x, hplay, hcache, hends⟩ :=
    (tasks_given_up_or_submitted hw hne Sample.halfOpen ⟨"ready", "gone"⟩).2 ⟨"s1"⟩
  have hended : ended = (⟨v, ω'⟩, some x) := hplay
  obtain ⟨-, hkept, hgrown, hfailed, -⟩ := hends.submitted htimely
  obtain ⟨r, rfl, hr⟩ := hfailed ⟨1, by decide, by decide⟩
  obtain ⟨m, hm, hfirst⟩ := hgrown 0 _ rfl (by decide)
  obtain ⟨m', hm', hsecond⟩ := hkept 1 _ rfl (by decide)
  rw [hended]
  refine ⟨hw, hne, htimely, ⟨r, rfl, hr⟩, hcache, ⟨m, hm, ?_⟩, m', hm', ?_⟩
  · rw [hfirst.entry, hfirst.lastId]
    decide +kernel
  · rw [Memory.stream, ← hsecond.streams]
    decide +kernel

end SessionWatch
