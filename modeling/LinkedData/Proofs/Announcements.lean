/-
  LinkedData.Proofs.Announcements — every change is announced and archived once.

  Clients ask a service for changes, forget mementos, fetch profiles, and move its sink, in any order
  (`Lived`). The record store may fail at any time. The archive is one of histories, and what is stored in
  it besides makes no difference to them (`Keeper`); the sink takes what it is given when it is given it
  (`Delivers`). Files are such an archive, and a channel is such a sink.

  A commit reports the records that differ, each once and as it is afterwards (`Dated.mem_iff`,
  `Dated.state`), however often they were written on the way. Their states are new to their histories, since no
  state that was recorded there is younger than the record was (`Lived.kept`). So after a request that
  succeeds the news is of the records that differ, the target's first, and it is their live states, and
  these only, that were added to the histories (`changes_published_once`).
-/

import LinkedData.Proofs.AuditLogs
import LinkedData.Proofs.Chronicles
import LinkedData.Proofs.Pipeline

namespace LinkedData

open Std SteadyStore

/-! ## Archives and sinks that work -/

/-- A chronicle in which contents are stored beside the histories. -/
structure Keeper {α : Type} [MementoStore α] [BlobStore α] (known : Set Iri)
    (able : Iri → Instant → Option Resource → Prop) (holds : α → Histories → Prop) : Prop
    extends Chronicle known able holds where
  store : ∀ {a h}, holds a h → ∀ (content : Bytes) (mime : Option String),
    holds (BlobStore.store a content mime).2 h

theorem FileArchive.keeper (known : Set Iri) : Keeper known Lasting fun (a : FileArchive) h => a.Holds known h where
  put hh _ _ _ hid hable := hh.put hid hable.1 (hable.2 _ rfl)
  delete hh _ _ hid hable := hh.delete hid hable.1
  list hh _ hid := (FileArchive.chronicle hh.apart).list ⟨hh.suits, hh.keeps⟩ hid
  get hh _ hid t := (FileArchive.chronicle hh.apart).get ⟨hh.suits, hh.keeps⟩ hid t
  store hh content mime := hh.store content mime

theorem Archive.keeper : Keeper Set.univ (fun id _ o => ∀ r ∈ o, r.id = id) Archive.Holds where
  toChronicle := Archive.chronicle
  store hh _ _ := ⟨hh.entries, hh.own⟩

/-- Sinks of which `heard` says what they were given take what they are given. -/
def Delivers {ε : Type} [EventSink ε] (heard : ε → List Notification → Prop) : Prop :=
  ∀ {e ns}, heard e ns → ∀ n, ∃ e', EventSink.emit e n = (.ok (), e') ∧ heard e' (ns ++ [n])

/-- A channel in which some news waits. -/
def Sink.Waits (s : Sink) (waiting : List Notification) : Prop := s = .channel waiting

theorem Sink.delivers : Delivers Sink.Waits := by
  rintro _ waiting rfl n
  exact ⟨_, rfl, rfl⟩

/-- Histories with some states more, each under its time. -/
def Histories.record (h : Histories) (rs : List Resource) : Histories :=
  rs.foldl (fun h r => h.set r.id r.modified (some r)) h

theorem Histories.lookup_set (h : Histories) (r : Resource) (k : Iri × Instant) :
    (h.set r.id r.modified (some r)) k.1 k.2 = if (r.id, r.modified) = k then some r else h k.1 k.2 := by
  unfold Histories.set
  simp only [Prod.ext_iff, eq_comm]

theorem Histories.record_of_mem (h : Histories) {rs : List Resource} (hn : (rs.map Resource.id).Nodup) {r : Resource}
    (hr : r ∈ rs) : h.record rs r.id r.modified = some r := by
  have hkeys : (rs.map fun r => (r.id, r.modified)).Nodup := by
    refine .of_map Prod.fst ?_
    rwa [List.map_map]
  exact lookup_foldl_of_mem (fun (h : Histories) (k : Iri × Instant) => h k.1 k.2) lookup_set h hkeys hr

theorem Histories.record_of_not_mem (h : Histories) {rs : List Resource} {id : Iri} {t : Instant}
    (hr : (id, t) ∉ rs.map fun r => (r.id, r.modified)) : h.record rs id t = h id t :=
  lookup_foldl_of_not_mem (fun (h : Histories) (k : Iri × Instant) => h k.1 k.2) lookup_set h hr

namespace Service

section

variable {α ε : Type} [MementoStore α] [BlobStore α] [EventSink ε] {known : Set Iri}
  {able : Iri → Instant → Option Resource → Prop} {holds : α → Histories → Prop}
  {heard : ε → List Notification → Prop}

/-- States that can be written are all recorded. -/
theorem holds_record (hk : Keeper known able holds) {a : α} {h : Histories} (hh : holds a h) {rs : List Resource}
    (hrs : ∀ r ∈ rs, r.id ∈ known ∧ able r.id r.modified (some r)) :
    holds (rs.foldl (fun a r => (MementoStore.put a r.id r.modified r).2) a) (h.record rs) := by
  induction rs generalizing a h with
  | nil => exact hh
  | cons r rs ih =>
    obtain ⟨hid, hable⟩ := hrs r List.mem_cons_self
    obtain ⟨a', hput, hnext⟩ := hk.put hh hid hable
    rw [List.foldl_cons, hput]
    exact ih hnext fun x hx => hrs x (List.mem_cons_of_mem r hx)

omit [MementoStore α] [BlobStore α] in
theorem heard_notify (hd : Delivers heard) {e : ε} {ns : List Notification} (he : heard e ns)
    (news : List Notification) :
    heard (notify e news) (ns ++ news) := by
  induction news generalizing e ns with
  | nil => rwa [List.append_nil]
  | cons n news ih =>
    obtain ⟨e', hemit, hnext⟩ := hd he n
    rw [notify, List.foldl_cons, hemit, List.append_cons]
    exact ih hnext

end

/-! ## The news of a commit -/

/-- `n` is the news of `y` that a commit makes. -/
structure NewsOf (c : Commit) (y : Resource) (n : Notification) : Prop where
  resource : n.resource = y.id
  kind : n.kind = kindFor c y
  model : n.model = y.model
  agent : n.agent = c.agent
  time : n.time = y.modified

theorem newsOf_of_mem {now : Instant} {process : UInt32} {issued : Nat} {c : Commit} {n : Notification}
    (h : n ∈ notifications now process issued c) : ∃ y ∈ c.resources, NewsOf c y n := by
  obtain ⟨i, hi, rfl⟩ := List.mem_mapIdx.mp h
  exact ⟨_, List.getElem_mem hi, rfl, rfl, rfl, rfl, rfl⟩

theorem exists_newsOf (now : Instant) (process : UInt32) (issued : Nat) {c : Commit} {y : Resource}
    (h : y ∈ c.resources) : ∃ n ∈ notifications now process issued c, NewsOf c y n := by
  obtain ⟨i, hi, rfl⟩ := List.mem_iff_getElem.mp h
  exact ⟨_, List.mem_mapIdx.mpr ⟨i, hi, rfl⟩, rfl, rfl, rfl, rfl, rfl⟩

theorem map_resource_notifications (now : Instant) (process : UInt32) (issued : Nat) (c : Commit) :
    (notifications now process issued c).map (·.resource) = c.resources.map Resource.id := by
  refine List.ext_getElem? fun i => ?_
  simp only [notifications, List.getElem?_map, List.getElem?_mapIdx, Option.map_map]
  rfl

theorem kindFor_target (c : Commit) : kindFor c c.resource = c.kind := if_pos rfl

theorem kindFor_touched {c : Commit} (h : (c.resources.map Resource.id).Nodup) {r : Resource} (hr : r ∈ c.touched) :
    kindFor c r = .updated := by
  refine if_neg fun heq => ?_
  exact (List.nodup_cons.mp h).1 (heq ▸ List.mem_map_of_mem hr)

/-- What is archived of a commit is what its news does not call deleted. -/
theorem mem_archived {c : Commit} (h : (c.resources.map Resource.id).Nodup) {r : Resource} :
    r ∈ archived c ↔ r ∈ c.resources ∧ kindFor c r ≠ .deleted := by
  have htouched : r ∈ c.touched → kindFor c r ≠ .deleted := fun hr => by
    rw [kindFor_touched h hr]
    nofun
  unfold archived Commit.resources
  by_cases hk : c.kind = .deleted
  · rw [if_pos hk, List.mem_cons]
    constructor
    · intro hr
      exact ⟨.inr hr, htouched hr⟩
    · rintro ⟨rfl | hr, hkind⟩
      · exact absurd ((kindFor_target c).trans hk) hkind
      · exact hr
  · rw [if_neg hk, List.mem_cons]
    refine ⟨fun hr => ⟨hr, ?_⟩, And.left⟩
    rcases hr with rfl | hr
    · rwa [kindFor_target]
    · exact htouched hr

theorem nodup_archived {c : Commit} (h : (c.resources.map Resource.id).Nodup) :
    ((archived c).map Resource.id).Nodup := by
  unfold archived
  split
  · exact (List.nodup_cons.mp h).2
  · exact h

end Service

namespace Repository

variable {σ : Type} [RecordStore σ] [KeyedStore σ] {r r' : Repository σ} {now : Instant} {c : Commit}

/-- What a commit reports is what is there afterwards. -/
theorem Dated.state (h : Dated r now c r') {y : Resource} (hy : y ∈ c.resources) :
    find r'.store y.id = some ⟨y, if Service.kindFor c y = .deleted then some y.modified else none⟩ := by
  rcases List.mem_cons.mp hy with rfl | hy
  · rw [Service.kindFor_target]
    exact Except.ok.inj ((record_eq _ _).symm.trans h.target)
  · rw [Service.kindFor_touched h.once hy]
    exact Except.ok.inj ((record_eq _ _).symm.trans (h.touched y hy))

/-- A commit reports the records that differ. -/
theorem Dated.mem_iff (h : Dated r now c r') {id : Iri} :
    id ∈ c.resources.map Resource.id ↔ find r'.store id ≠ find r.store id := by
  constructor
  · intro hin heq
    obtain ⟨y, hy, rfl⟩ := List.mem_map.mp hin
    rw [h.state hy] at heq
    -- a record that was there already would be older than itself
    have hless := h.later y hy _ ((record_eq _ _).trans (congrArg Except.ok heq.symm))
    exact Instant.lt_asymm hless hless
  · intro hne
    by_contra hout
    have hsame := h.others id hout
    rw [record_eq, record_eq, Except.ok.injEq] at hsame
    exact hne hsame

end Repository

/-! ## What a request publishes -/

/-- The target of a request and the kind of its activity. -/
def Request.act (root : Iri) : Request → Iri × ChangeKind
  | .makeRoot => (root, .created)
  | .create id _ _ _ | .createBinary id _ _ _ _ _ => (id, .created)
  | .replace id _ _ => (id, .updated)
  | .delete id _ => (id, .deleted)

/-- Who makes a request. The root is made by the administrator. -/
def Request.agent : Request → Iri
  | .makeRoot => Vocabulary.Server.administratorAgent
  | .create _ _ _ session | .createBinary _ _ _ _ _ session | .replace _ _ session | .delete _ session => session.agent

theorem Request.Asks.act {now : Instant} {q : Request} {call : Call} {session : Session} (h : q.Asks now call session)
    (root : Iri) : call.act root = some (q.act root) ∧ session.agent = q.agent := by
  cases h <;> exact ⟨rfl, rfl⟩

namespace Service

section

variable {σ α ε : Type} [RecordStore σ] [HonestStore σ]

/-- The request `q` took a repository from `r` to `r'`, sent `news`, and took the histories from `h` to `h'`. -/
structure Published (q : Request) (r r' : Repository σ) (news : List Notification) (h h' : Histories) : Prop where
  /-- News is of the records that differ. -/
  changed : ∀ id, id ∈ news.map (·.resource) ↔ held r'.store id ≠ held r.store id
  once : (news.map (·.resource)).Nodup
  /-- The target's comes first, then that of the others in their order. It is no news that the root is there. -/
  ordered : (∃ first others, news = first :: others ∧ (first.resource, first.kind) = q.act r.root ∧
      (others.map (·.resource)).Pairwise (compare · · = .lt) ∧ ∀ n ∈ others, n.kind = .updated) ∨
    news = [] ∧ q = .makeRoot ∧ ∃ x, held r.store r.root = some (.live x)
  /-- It says who made the request, and what the record is now. -/
  stated : ∀ n ∈ news, n.agent = q.agent ∧ ∃ record, held r'.store n.resource = some record ∧
    record.isLive = decide (n.kind ≠ .deleted) ∧ record.resource.model = n.model ∧ record.resource.modified = n.time
  /-- What is live now is kept under its time, where there was nothing. -/
  kept : ∀ n ∈ news, n.kind ≠ .deleted → h n.resource n.time = none ∧
    ∃ x, held r'.store n.resource = some (.live x) ∧ h' n.resource n.time = some x
  /-- Nothing else is kept, and nothing is lost. -/
  spared : ∀ id t, (∀ n ∈ news, n.kind ≠ .deleted → (n.resource, n.time) ≠ (id, t)) → h' id t = h id t

variable {q : Request} {r r' : Repository σ} {h : Histories}

theorem published_nothing (hq : q = .makeRoot) (hroot : ∃ x, held r.store r.root = some (.live x))
    (hstore : held r'.store = held r.store) : Published q r r' [] h h where
  changed id := by simp [hstore]
  once := .nil
  ordered := .inr ⟨rfl, hq, hroot⟩
  stated := nofun
  kept := nofun
  spared _ _ _ := rfl

theorem published_commit {now : Instant} {c : Commit}
    (hd : Repository.Dated r.shadow now c r'.shadow)
    (hs : Repository.Signed r.shadow (q.act r.root).1 (q.act r.root).2 q.agent c r'.shadow)
    (hfresh : ∀ y ∈ c.resources, h y.id y.modified = none) (process : UInt32) (issued : Nat) :
    Published q r r' (notifications now process issued c) h (h.record (archived c)) := by
  have hstate : ∀ y ∈ c.resources, held r'.store y.id =
      some ⟨y, if kindFor c y = .deleted then some y.modified else none⟩ := fun y hy => hd.state hy
  refine ⟨fun id => ?_, ?_, ?_, fun n hn => ?_, fun n hn hkind => ?_, fun id t hother => ?_⟩
  · rw [map_resource_notifications]
    exact hd.mem_iff
  · rw [map_resource_notifications]
    exact hd.once
  · have hids := map_resource_notifications now process issued c
    unfold notifications Commit.resources at hids ⊢
    rw [List.mapIdx_cons] at hids ⊢
    refine .inl ⟨_, _, rfl, ?_, ?_, fun n hn => ?_⟩
    · rw [kindFor_target, hs.target, hs.kind]
    · rw [(List.cons.inj hids).2]
      exact hs.ordered
    · obtain ⟨i, hi, rfl⟩ := List.mem_mapIdx.mp hn
      exact kindFor_touched hd.once (List.getElem_mem hi)
  · obtain ⟨y, hy, hof⟩ := newsOf_of_mem hn
    refine ⟨hof.agent.trans hs.agent, _, (congrArg _ hof.resource).trans (hstate y hy), ?_, hof.model.symm,
      hof.time.symm⟩
    rw [hof.kind]
    by_cases hk : kindFor c y = .deleted
    · simp [Record.isLive, hk]
    · simp [Record.isLive, hk]
  · obtain ⟨y, hy, hof⟩ := newsOf_of_mem hn
    rw [hof.kind] at hkind
    rw [hof.resource, hof.time]
    refine ⟨hfresh y hy, y, (hstate y hy).trans (by rw [if_neg hkind]; rfl), ?_⟩
    exact h.record_of_mem (nodup_archived hd.once) ((mem_archived hd.once).mpr ⟨hy, hkind⟩)
  · refine h.record_of_not_mem fun hin => ?_
    obtain ⟨y, hy, hkey⟩ := List.mem_map.mp hin
    obtain ⟨hy, hkind⟩ := (mem_archived hd.once).mp hy
    obtain ⟨n, hn, hof⟩ := exists_newsOf now process issued hy
    exact hother n hn (hof.kind ▸ hkind) (by rw [hof.resource, hof.time, hkey])

variable [BlobStore α] {s : Service σ α ε}

/-- A request does to the records what is told of its commit, or is refused, or is for a root that is there. -/
theorem enact_shadow (hs : Repository.Sound s.repository.shadow) (now : Instant) (q : Request) :
    Repository.Told s.repository.shadow now (s.enact now q).1.toOption.join (s.enact now q).2.repository.shadow ∧
      (∀ c, (s.enact now q).1 = .ok (some c) → Repository.Signed s.repository.shadow (q.act s.root).1 (q.act s.root).2
        q.agent c (s.enact now q).2.repository.shadow) ∧
      ((s.enact now q).1 = .ok none → q = .makeRoot ∧ ∃ x, held s.repository.store s.root = some (.live x)) := by
  rcases s.enact_cases now q with ⟨⟨e, he⟩, hstill⟩ | ⟨call, session, hasks, hcommit, hrepository, hnone⟩
  · rw [he, hstill]
    refine ⟨⟨rfl, rfl⟩, fun c hc => ?_, fun hc => ?_⟩ <;> cases hc
  · refine ⟨?_, fun c hc => ?_, fun hc => ?_⟩
    · rw [hcommit, hrepository]
      exact Repository.told_shadow hs session now call
    · rw [hc] at hcommit
      obtain ⟨id, kind, hact, hsigned⟩ := Repository.signed_shadow hs.keyed session now hcommit.symm
      obtain ⟨hact', hagent⟩ := hasks.act s.root
      rw [show s.repository.root = s.root from rfl, hact', Option.some.injEq] at hact
      rw [hrepository, ← hagent, hact]
      exact hsigned
    · obtain rfl := hnone hc
      have hroot : (s.repository.createRoot (.administrator now) now).1 = .ok none := hc
      exact ⟨rfl, Repository.live_of_createRoot_none hs.keyed hroot⟩

/-! ## The life of a service -/

variable [MementoStore α] [EventSink ε]

/-- The states that a request archives can be recorded. -/
def Admits (known : Set Iri) (able : Iri → Instant → Option Resource → Prop) (s : Service σ α ε)
    (now : Instant) (q : Request) : Prop :=
  ∀ c ∈ (s.enact now q).1.toOption.join, ∀ r ∈ archived c, r.id ∈ known ∧ able r.id r.modified (some r)

/-- The services that clients can come to from one without records and histories. -/
inductive Lived (known : Set Iri) (able : Iri → Instant → Option Resource → Prop)
    (holds : α → Histories → Prop) :
    Service σ α ε → Prop
  | empty {s : Service σ α ε} (hempty : ∀ id, held s.repository.store id = none) (hkeeps : s.keepsHistory = true)
      (hholds : holds s.archive fun _ _ => none) : Lived known able holds s
  | request {s : Service σ α ε} (h : Lived known able holds s) (now : Instant) (q : Request)
      (ha : s.Admits known able now q) : Lived known able holds (s.handle now q).2
  | forget {s : Service σ α ε} (h : Lived known able holds s) {id : Iri} {t : Instant} (hid : id ∈ known)
      (ha : able id t none) : Lived known able holds (s.deleteMemento id t).2
  | profile {s : Service σ α ε} (h : Lived known able holds s) (iri : String) (fetch : String → Except Error String) :
      Lived known able holds (s.profile iri fetch).2
  /-- News is taken out of the sink, or it is another from now on. -/
  | listen {s : Service σ α ε} (h : Lived known able holds s) (sink : ε) : Lived known able holds { s with sink }

/-- The archive holds the histories `h`, and no record is older than a state of its history. -/
structure Kept (holds : α → Histories → Prop) (s : Service σ α ε) (h : Histories) : Prop where
  sound : Repository.Sound s.repository.shadow
  keepsHistory : s.keepsHistory = true
  holds : holds s.archive h
  reached : ∀ id t, h id t ≠ none →
    ∃ record, held s.repository.store id = some record ∧ t ≤ record.resource.modified

variable {known : Set Iri} {able : Iri → Instant → Option Resource → Prop} {holds : α → Histories → Prop}

omit [BlobStore α] [MementoStore α] [EventSink ε] in
/-- The states of a commit are younger than all that was recorded. -/
theorem Kept.fresh (hkept : Kept holds s h) {now : Instant} {c : Commit} {r' : Repository σ}
    (hd : Repository.Dated s.repository.shadow now c r'.shadow) {y : Resource} (hy : y ∈ c.resources) :
    h y.id y.modified = none := by
  by_contra hsome
  obtain ⟨old, hold, hle⟩ := hkept.reached _ _ hsome
  have hless := hd.later y hy old ((Repository.record_eq _ _).trans (congrArg Except.ok hold))
  have hself := Instant.lt_of_le_of_lt hle hless
  exact Instant.lt_asymm hself hself

/-- A commit that is finished is recorded. -/
theorem Kept.finish (hk : Keeper known able holds) (hkept : Kept holds s h) {now : Instant} {c : Commit}
    {s' : Service σ α ε} (hd : Repository.Dated s.repository.shadow now c s'.repository.shadow)
    (hsound : Repository.Sound s'.repository.shadow) (hkeeps : s'.keepsHistory = true) (hholds : holds s'.archive h)
    (ha : ∀ r ∈ archived c, r.id ∈ known ∧ able r.id r.modified (some r)) :
    Kept holds (s'.finish now c) (h.record (archived c)) := by
  refine ⟨hsound, hkeeps, ?_, fun id t hsome => ?_⟩
  · show holds (if s'.keepsHistory then recordMementos s'.archive c else s'.archive) _
    rw [if_pos hkeeps]
    exact holds_record hk hholds ha
  · by_cases hin : (id, t) ∈ (archived c).map fun r => (r.id, r.modified)
    · obtain ⟨r, hr, hkey⟩ := List.mem_map.mp hin
      cases hkey
      exact ⟨_, hd.state ((mem_archived hd.once).mp hr).1, Instant.le_refl _⟩
    · rw [h.record_of_not_mem hin] at hsome
      obtain ⟨old, hold, hle⟩ := hkept.reached id t hsome
      obtain ⟨record, hrecord, hle'⟩ := hd.reaches hold
      exact ⟨record, hrecord, Instant.le_trans hle hle'⟩

/-- What a request does to a service: the news that it sends, and the histories that it leaves. -/
theorem Kept.handle (hk : Keeper known able holds) (hkept : Kept holds s h) {now : Instant}
    (ha : s.Admits known able now q) :
    ∃ news h', Kept holds (s.handle now q).2 h' ∧ (s.handle now q).2.sink = notify s.sink news ∧
      ∀ answer, (s.handle now q).1 = .ok answer → Published q s.repository (s.handle now q).2.repository news h h' := by
  obtain ⟨htold, hsigned, hnothing⟩ := enact_shadow hkept.sound now q
  have henacted := Service.enacted s now q
  have hsound := htold.sound hkept.sound
  have hkeeps := henacted.keepsHistory.trans hkept.keepsHistory
  have hholds := henacted.archive.keeps (P := (holds · h))
    (fun content mime => hk.store hkept.holds content mime) hkept.holds
  have hsink := henacted.sink
  unfold Admits at ha
  rw [handle_eq, wrapUp]
  generalize s.enact now q = out at *
  obtain ⟨answer, s'⟩ := out
  have hstill : answer.toOption.join = none → held s'.repository.store = held s.repository.store ∧ Kept holds s' h := by
    intro hnone
    have hstore := htold.2
    rw [hnone] at hstore
    have hheld : held s'.repository.store = held s.repository.store := congrArg Contents.find hstore
    exact ⟨hheld, hsound, hkeeps, hholds, hheld ▸ hkept.reached⟩
  rcases answer with e | _ | c
  · exact ⟨[], h, (hstill rfl).2, hsink, nofun⟩
  · obtain ⟨hheld, hafter⟩ := hstill rfl
    obtain ⟨hq, hroot⟩ := hnothing rfl
    exact ⟨[], h, hafter, hsink, fun _ _ => published_nothing hq hroot hheld⟩
  · have hd : Repository.Dated s.repository.shadow now c s'.repository.shadow := htold.2
    have hpublished := published_commit hd (hsigned c rfl) (fun _ hy => hkept.fresh hd hy) s'.process s'.issued
    refine ⟨_, _, hkept.finish hk hd hsound hkeeps hholds (ha c rfl), ?_, fun _ _ => hpublished⟩
    exact congrArg (notify · (notifications now s'.process s'.issued c)) hsink

omit [EventSink ε] in
theorem Kept.forget (hk : Keeper known able holds) (hkept : Kept holds s h) {id : Iri} {t : Instant}
    (hid : id ∈ known) (ha : able id t none) : Kept holds (s.deleteMemento id t).2 (h.set id t none) := by
  obtain ⟨archive, hdelete, hholds⟩ := hk.delete hkept.holds hid ha
  have hservice : (s.deleteMemento id t).2 = { s with archive } := by
    unfold deleteMemento
    rw [if_pos hkept.keepsHistory, hdelete]
  rw [hservice]
  refine ⟨hkept.sound, hkept.keepsHistory, hholds, fun x u hsome => hkept.reached x u ?_⟩
  unfold Histories.set at hsome
  split at hsome
  · exact absurd rfl hsome
  · exact hsome

theorem Lived.kept (hk : Keeper known able holds) (hs : Lived known able holds s) : ∃ h, Kept holds s h := by
  induction hs with
  | empty hempty hkeeps hholds => exact ⟨_, .of_empty hempty, hkeeps, hholds, fun _ _ hsome => absurd rfl hsome⟩
  | request _ now q ha ih =>
    obtain ⟨h, hkept⟩ := ih
    obtain ⟨_, h', hafter, -⟩ := hkept.handle hk ha
    exact ⟨h', hafter⟩
  | forget _ hid ha ih =>
    obtain ⟨h, hkept⟩ := ih
    exact ⟨_, hkept.forget hk hid ha⟩
  | profile _ iri fetch ih =>
    obtain ⟨h, hkept⟩ := ih
    exact ⟨h, hkept.sound, hkept.keepsHistory, hkept.holds, hkept.reached⟩
  | listen _ sink ih =>
    obtain ⟨h, hkept⟩ := ih
    exact ⟨h, hkept.sound, hkept.keepsHistory, hkept.holds, hkept.reached⟩

/-- Whatever a service went through: when a request succeeds, the sink that works hears of every record that
    differs and of no other, once, the target's first and by its kind; and the histories get the new state
    of each, but for a deleted target, and nothing else. -/
theorem changes_published_once (hk : Keeper known able holds) (hs : Lived known able holds s)
    {heard : ε → List Notification → Prop} (hd : Delivers heard) {before : List Notification}
    (hsink : heard s.sink before) {now : Instant} (ha : s.Admits known able now q) {answer : Option Resource}
    (hok : (s.handle now q).1 = .ok answer) :
    ∃ news h h', heard (s.handle now q).2.sink (before ++ news) ∧ holds s.archive h ∧
      holds (s.handle now q).2.archive h' ∧ Published q s.repository (s.handle now q).2.repository news h h' := by
  obtain ⟨h, hkept⟩ := hs.kept hk
  obtain ⟨news, h', hafter, hsent, hpublished⟩ := hkept.handle hk ha
  refine ⟨news, h, h', ?_, hkept.holds, hafter.holds, hpublished answer hok⟩
  rw [hsent]
  exact heard_notify hd hsink news

end

/-! ## A farewell -/

section

variable {σ α ε : Type} [RecordStore σ] [HonestStore σ] [MementoStore α] [BlobStore α] [EventSink ε]

/-- A service after some requests. -/
def handleAll (s : Service σ α ε) (qs : List (Instant × Request)) : Service σ α ε :=
  qs.foldl (fun s q => (s.handle q.1 q.2).2) s

omit [HonestStore σ] [MementoStore α] [EventSink ε] in
/-- Whatever a request archives is archived under its own identifier. -/
theorem admits_own (s : Service σ α ε) (now : Instant) (q : Request) :
    s.Admits Set.univ (fun id _ o => ∀ r ∈ o, r.id = id) now q := by
  rintro c - r -
  refine ⟨trivial, fun x hx => ?_⟩
  cases hx
  rfl

theorem Lived.handleAll {holds : α → Histories → Prop} {s : Service σ α ε}
    (hs : Lived Set.univ (fun id _ o => ∀ r ∈ o, r.id = id) holds s) (qs : List (Instant × Request)) :
    Lived Set.univ (fun id _ o => ∀ r ∈ o, r.id = id) holds (s.handleAll qs) := by
  induction qs generalizing s with
  | nil => exact hs
  | cons q qs ih => exact ih (hs.request q.1 q.2 (admits_own s q.1 q.2))

end

/-- The user graph of a direct container whose children sing in `trellis:data/m`. -/
def choirGraph : Graph := .ofList
  [⟨.iri ⟨"trellis:data/d"⟩, Vocabulary.Ldp.membershipResource, .iri ⟨"trellis:data/m"⟩⟩,
   ⟨.iri ⟨"trellis:data/d"⟩, Vocabulary.Ldp.hasMemberRelation, .iri ⟨"urn:sings"⟩⟩]

def rehearsal : List (Instant × Request) :=
  [(⟨1, 0⟩, .makeRoot),
   (⟨2, 0⟩, .create ⟨"trellis:data/m"⟩ .rdfSource .empty (.anonymous ⟨2, 0⟩)),
   (⟨2, 0⟩, .create ⟨"trellis:data/b"⟩ .rdfSource .empty (.anonymous ⟨2, 0⟩)),
   (⟨3, 0⟩, .create ⟨"trellis:data/d"⟩ .directContainer (.ofUserGraph choirGraph) (.anonymous ⟨3, 0⟩)),
   (⟨3, 0⟩, .create ⟨"trellis:data/d/x"⟩ .rdfSource .empty (.anonymous ⟨3, 0⟩))]

/-- A service whose store does not write `trellis:data/b`. -/
def choir : Service Blemished Archive Sink :=
  ⟨.open ⟨"trellis:data/"⟩ ⟨.empty, ⟨"trellis:data/b"⟩⟩ 0 ⟨0, 0⟩, .empty, true, .channel [],
    "urn:agents:", .new 1, 0, 0⟩

/-- After the rehearsal a memento was forgotten, and the news was taken out. -/
def rehearsed : Service Blemished Archive Sink :=
  { ((choir.handleAll rehearsal).deleteMemento ⟨"trellis:data/m"⟩ ⟨2, 0⟩).2 with sink := Sink.channel [] }

def farewell : Request := .delete ⟨"trellis:data/d/x"⟩ (.anonymous ⟨3, 0⟩)

/-- The child of a container is deleted: that is news of the child, of the container and of the resource that
    had the child as a member. -/
theorem farewell_published :
    ∃ news h h', (rehearsed.handle ⟨3, 0⟩ farewell).2.sink = .channel news ∧
      news.map (fun n => (n.resource.text, n.kind, n.time)) =
        [("trellis:data/d/x", .deleted, ⟨3, 1⟩), ("trellis:data/d", .updated, ⟨3, 2⟩),
         ("trellis:data/m", .updated, ⟨3, 1⟩)] ∧
      rehearsed.archive.Holds h ∧ (rehearsed.handle ⟨3, 0⟩ farewell).2.archive.Holds h' ∧
      Published farewell rehearsed.repository (rehearsed.handle ⟨3, 0⟩ farewell).2.repository news h h' := by
  have hlived : Lived Set.univ (fun id _ o => ∀ r ∈ o, r.id = id) Archive.Holds rehearsed :=
    ((Lived.empty Table.get?_empty rfl Archive.holds_empty).handleAll rehearsal).forget trivial nofun |>.listen _
  have hsink : rehearsed.sink.Waits [] := rfl
  have hanswer : (rehearsed.handle ⟨3, 0⟩ farewell).1 = .ok none := by decide +kernel
  have hnews : (rehearsed.handle ⟨3, 0⟩ farewell).2.sink.receive.1.map (fun n => (n.resource.text, n.kind, n.time)) =
      [("trellis:data/d/x", .deleted, ⟨3, 1⟩), ("trellis:data/d", .updated, ⟨3, 2⟩),
       ("trellis:data/m", .updated, ⟨3, 1⟩)] := by decide +kernel
  obtain ⟨news, h, h', hheard, hbefore, hafter, hpublished⟩ :=
    changes_published_once Archive.keeper hlived Sink.delivers hsink (admits_own _ _ _) hanswer
  replace hheard : (rehearsed.handle ⟨3, 0⟩ farewell).2.sink = .channel news := hheard
  rw [hheard] at hnews
  exact ⟨news, h, h', hheard, hnews, hbefore, hafter, hpublished⟩

end Service

end LinkedData
