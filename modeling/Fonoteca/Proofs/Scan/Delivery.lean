import Fonoteca.Proofs.Scan.Pipeline

/-!
# Where the new tracks of a scan are

* `Pipeline.Delivers` says that the new tracks are with the consumer or on the way there, in order
  and none left out, unless the consumer went away.  No move changes this
  (**`Pipeline.Delivers.turn`**).
* `Pipeline.Stored` says that they are in the store, and neither does any move change that
  (**`Pipeline.Stored.turn`**).
* **`Pipeline.Stored.run_track?`** : so the store gives each of them back as the consumer got it.
-/

set_option autoImplicit false

namespace Fonoteca

open Tables (Sound Additions)

namespace Pipeline

variable {files : List Path} {reader : TagReader} {p : Pipeline}

/-- Where the new tracks are. -/
structure Delivers (p : Pipeline) : Prop where
  noticed : p.consumerGone = true → p.watching = false
  gone : p.watching = false → p.accepted = []
  /-- A consumer who is there has got all of them, or will. -/
  watched : p.watching = true → p.received ++ p.accepted ++ p.ingesting.toForward = p.added
  /-- A consumer who went away got the first of them. -/
  received : p.received <+: p.added

/-- The new tracks are in the store, to which nothing happened but additions. -/
structure Stored (files : List Path) (reader : TagReader) (s : Store) (p : Pipeline) : Prop where
  store : ∃ u, Additions s.tables u ∧ p.store = { s with tables := u }
  fresh : p.ingesting.isOver = false → ∀ track ∈ p.upcoming files reader, track.IsFresh
  rows : ∀ a ∈ p.added, a.row a.id ∈ p.store.tables.joined

namespace Delivers

theorem start (s : Store) : Delivers (start s) :=
  ⟨fun h => absurd h (by simp [Pipeline.start]), fun _ => rfl, fun _ => rfl, List.nil_prefix⟩

theorem extractionTurn (h : Delivers p) : Delivers (p.extractionTurn files reader) := by
  obtain ⟨_, _, _, _, hp⟩ := p.extractionTurn_frame files reader
  rw [hp]
  exact ⟨h.noticed, h.gone, h.watched, h.received⟩

/-- A move of the ingestion that adds and passes on nothing. -/
theorem of_same (h : Delivers p) {q : Pipeline} (hgone : q.consumerGone = p.consumerGone)
    (hwatching : q.watching = p.watching) (haccepted : q.accepted = p.accepted)
    (hreceived : q.received = p.received) (hadded : q.added = p.added)
    (hforward : q.ingesting.toForward = p.ingesting.toForward) : Delivers q where
  noticed := by rw [hgone, hwatching]; exact h.noticed
  gone := by rw [hwatching, haccepted]; exact h.gone
  watched := by rw [hwatching, haccepted, hreceived, hadded, hforward]; exact h.watched
  received := by rw [hreceived, hadded]; exact h.received

theorem ingestionTurn (h : Delivers p) : Delivers p.ingestionTurn := by
  rw [Pipeline.ingestionTurn]
  split
  · next hi =>
    have hforward : p.ingesting.toForward = [] := by rw [hi]; rfl
    split
    · exact h.of_same rfl rfl rfl rfl rfl hforward.symm
    · exact h.of_same rfl rfl rfl rfl rfl hforward.symm
    · exact h
  · next track hi =>
    have hforward : p.ingesting.toForward = [] := by rw [hi]; rfl
    split
    · exact h.of_same rfl rfl rfl rfl rfl hforward.symm
    · next new store hrun =>
      refine ⟨h.noticed, h.gone, fun hwatching => ?_, h.received.trans (List.prefix_append _ _)⟩
      have hwatched := h.watched hwatching
      rw [hforward, List.append_nil] at hwatched
      exact congrArg (· ++ [new]) hwatched
    · exact h.of_same rfl rfl rfl rfl rfl hforward.symm
  · next new hi =>
    have hwatched := h.watched
    rw [hi] at hwatched
    split
    · next hgone =>
      -- the ingestion knows that the consumer is gone
      have hwatching := h.noticed hgone
      exact ⟨h.noticed, h.gone, fun hthere => by simp [hwatching] at hthere, h.received⟩
    · split
      · next hgone hwatching =>
        have hleft : ¬ p.watching = false := by simp [hwatching]
        refine ⟨fun hgone' => absurd hgone' hgone, fun hleft' => absurd hleft' hleft, ?_,
          h.received⟩
        -- the track is now the last of those that wait for the consumer
        intro _
        rw [← hwatched hwatching]
        simp [Ingesting.toForward]
      · next hgone hwatching =>
        exact ⟨fun _ => by simpa using hwatching, h.gone, fun hthere => absurd hthere hwatching,
          h.received⟩
  · exact h
  · exact h

theorem take (h : Delivers p) : Delivers p.take := by
  rw [Pipeline.take]
  split
  · next track accepted haccepted =>
    have hwatching : p.watching = true := by
      by_contra hleft
      have hgone := h.gone (by simpa using hleft)
      simp [haccepted] at hgone
    have hwatched := h.watched hwatching
    rw [haccepted] at hwatched
    have htaken : p.received ++ [track] ++ accepted ++ p.ingesting.toForward = p.added := by
      rw [← hwatched]
      simp
    refine ⟨h.noticed, fun hleft => by simp [hwatching] at hleft, fun _ => htaken, ?_⟩
    rw [List.append_assoc] at htaken
    exact ⟨_, htaken⟩
  · exact h

theorem leave (h : Delivers p) : Delivers p.leave :=
  ⟨fun _ => rfl, fun _ => rfl, fun hthere => absurd hthere (by simp [Pipeline.leave]), h.received⟩

/-- Whoever makes a move, no new track gets lost on the way to a consumer who is there. -/
theorem turn (h : Delivers p) (turn : Turn) : Delivers (p.turn files reader turn) := by
  cases turn with
  | extraction => exact h.extractionTurn
  | ingestion => exact h.ingestionTurn
  | take => exact h.take
  | leave => exact h.leave

/-- **Whatever the schedule, no new track gets lost** on the way to a consumer who is there. -/
theorem run (files : List Path) (reader : TagReader) (s : Store) (schedule : List Turn) :
    Delivers ((Pipeline.start s).run files reader schedule) :=
  run_induct (fun _ turn h => h.turn turn) schedule (start s)

/-- What the consumer has got, or will get, is new. -/
theorem mem_added (h : Delivers p) {a : Track} (ha : a ∈ p.received ++ p.accepted) :
    a ∈ p.added := by
  by_cases hwatching : p.watching = true
  · rw [← h.watched hwatching]
    exact List.mem_append_left _ ha
  · rw [h.gone (by simpa using hwatching), List.append_nil] at ha
    exact h.received.subset ha

end Delivers

/-! ## In the store -/

/-- Whatever comes of an ingestion of a fresh track, the tracks that there are stay, and the track
is there if it was new. -/
theorem rows_of_ingest {s s' : Store} (h : Sound s.tables) (hopen : s.isOpen = true) {track : Track}
    (hfresh : track.IsFresh) {result : Except StoreError (Option Track)}
    (hrun : (ingest track).run.run s = (result, s')) :
    s.tables.joined ⊆ s'.tables.joined ∧
      ∀ a, result = .ok (some a) → a.row a.id ∈ s'.tables.joined := by
  by_cases hread : s.readOnly = true
  · have hrefused : (ingest track).run.run s = (.error (.query .readOnly), s) :=
      Store.run_ingest_readOnly h hopen hread track
    rw [hrefused] at hrun
    cases hrun
    exact ⟨List.Subset.refl _, fun a ha => by cases ha⟩
  · have hingest : (ingest track).run.run s = _ :=
      Store.run_ingest h hopen (by simpa using hread) track
    rw [hingest] at hrun
    cases hrun
    rcases h.joined_ingest hfresh with ⟨hnone, hjoined⟩ | ⟨id, hsome, hjoined⟩
    · rw [hnone, hjoined]
      exact ⟨List.Subset.refl _, fun a ha => by cases ha⟩
    · rw [hsome, hjoined]
      refine ⟨List.subset_append_left _ _, fun a ha => ?_⟩
      obtain rfl := Option.some.inj (Except.ok.inj ha)
      exact List.mem_append_right _ (List.mem_singleton_self _)

namespace Stored

variable {s : Store}

theorem start (files : List Path) (reader : TagReader) (s : Store) :
    Stored files reader s (start s) :=
  ⟨⟨s.tables, .refl, rfl⟩, fun _ => reader.isFresh_tracks files, fun _ h => by cases h⟩

/-- A move that neither gets new tracks nor touches the store. -/
theorem of_same (h : Stored files reader s p) {q : Pipeline} (hstore : q.store = p.store)
    (hadded : q.added = p.added) (hover : q.ingesting.isOver = false → p.ingesting.isOver = false)
    (hupcoming : p.ingesting.isOver = false → q.upcoming files reader ⊆ p.upcoming files reader) :
    Stored files reader s q where
  store := hstore ▸ h.store
  fresh hq track htrack := h.fresh (hover hq) track (hupcoming (hover hq) htrack)
  rows := by rw [hstore, hadded]; exact h.rows

theorem sound (h : Stored files reader s p) (hs : Sound s.tables) : Sound p.store.tables := by
  obtain ⟨u, hu, hstore⟩ := h.store
  rw [hstore]
  exact .additions hu hs

theorem isOpen (h : Stored files reader s p) (hopen : s.isOpen = true) : p.store.isOpen = true := by
  obtain ⟨u, -, hstore⟩ := h.store
  rw [hstore]
  exact hopen

/-- A move that stores the track in hand. -/
theorem of_ingest (h : Stored files reader s p) (hs : Sound s.tables) (hopen : s.isOpen = true)
    {track : Track} (hi : p.ingesting = .storing track)
    {result : Except StoreError (Option Track)} {store : Store}
    (hrun : (ingest track).run.run p.store = (result, store)) {q : Pipeline}
    (hstore : q.store = store) (hadded : ∀ a ∈ q.added, a ∈ p.added ∨ result = .ok (some a))
    (hupcoming : q.upcoming files reader ⊆ p.upcoming files reader) :
    Stored files reader s q := by
  have hrunning : p.ingesting.isOver = false := by rw [hi]; rfl
  have hfresh : track.IsFresh :=
    h.fresh hrunning track (by simp [upcoming, hi, Ingesting.inHand])
  obtain ⟨hkept, hnew⟩ := rows_of_ingest (h.sound hs) (h.isOpen hopen) hfresh hrun
  refine ⟨?_, fun _ later hlater => h.fresh hrunning later (hupcoming hlater), fun a ha => ?_⟩
  · obtain ⟨u, hu, hpstore⟩ := h.store
    obtain ⟨v, hv, -, hlater⟩ := stepwise_ingest track p.store
    have hsame : store = { p.store with tables := v } := (congrArg Prod.snd hrun).symm.trans hlater
    rw [hpstore] at hv hsame
    exact ⟨v, hu.trans hv, hstore.trans hsame⟩
  · rw [hstore]
    rcases hadded a ha with hold | hresult
    · exact hkept (h.rows a hold)
    · exact hnew a hresult

theorem extractionTurn (h : Stored files reader s p) :
    Stored files reader s (p.extractionTurn files reader) := by
  have hupcoming (hover : p.ingesting.isOver = false) :
      (p.extractionTurn files reader).upcoming files reader ⊆ p.upcoming files reader := by
    rw [upcoming_extractionTurn files reader hover]
    exact List.Subset.refl _
  obtain ⟨_, _, _, _, hp⟩ := p.extractionTurn_frame files reader
  rw [hp] at hupcoming ⊢
  exact h.of_same rfl rfl id hupcoming

theorem ingestionTurn (h : Stored files reader s p) (hs : Sound s.tables)
    (hopen : s.isOpen = true) : Stored files reader s p.ingestionTurn := by
  rw [Pipeline.ingestionTurn]
  split
  · next hi =>
    have hrunning : p.ingesting.isOver = false := by rw [hi]; rfl
    split
    · next track ore hore =>
      refine h.of_same rfl rfl (fun _ => hrunning) fun _ => ?_
      simp [upcoming, hi, hore, Ingesting.inHand]
    · exact h.of_same rfl rfl (fun _ => hrunning) fun _ => by simp [upcoming, hi, Ingesting.inHand]
    · exact h
  · next track hi =>
    split
    · next store hrun =>
      exact h.of_ingest hs hopen hi hrun rfl (fun a ha => .inl ha)
        (by simp [upcoming, hi, Ingesting.inHand])
    · next new store hrun =>
      refine h.of_ingest hs hopen hi hrun rfl (fun a ha => ?_)
        (by simp [upcoming, hi, Ingesting.inHand])
      rcases List.mem_append.1 ha with hold | hnew
      · exact .inl hold
      · exact .inr (by rw [List.mem_singleton.1 hnew])
    · next e store hrun =>
      refine h.of_ingest hs hopen hi hrun rfl (fun a ha => .inl ha) ?_
      simp [upcoming, hi, Ingesting.inHand]
  · next new hi =>
    have hrunning : p.ingesting.isOver = false := by rw [hi]; rfl
    have hupcoming : p.ore ++ p.extracting.toSend files reader ⊆ p.upcoming files reader := by
      simp [upcoming, hi, Ingesting.inHand]
    split
    · exact h.of_same rfl rfl (fun _ => hrunning) fun _ => hupcoming
    · split
      · exact h.of_same rfl rfl (fun _ => hrunning) fun _ => hupcoming
      · exact h.of_same rfl rfl (fun _ => hrunning) fun _ => hupcoming
  · exact h
  · exact h

/-- Whoever makes a move, the new tracks are in the store. -/
theorem turn (h : Stored files reader s p) (hs : Sound s.tables) (hopen : s.isOpen = true)
    (turn : Turn) : Stored files reader s (p.turn files reader turn) := by
  cases turn with
  | extraction => exact h.extractionTurn
  | ingestion => exact h.ingestionTurn hs hopen
  | take =>
    rw [Pipeline.turn, take]
    split
    · exact h.of_same rfl rfl id fun _ => List.Subset.refl _
    · exact h
  | leave => exact h.of_same rfl rfl id fun _ => List.Subset.refl _

/-- **Whatever the schedule, the new tracks are in the store** at all times. -/
theorem run (files : List Path) (reader : TagReader) (hs : Sound s.tables) (hopen : s.isOpen = true)
    (schedule : List Turn) :
    Stored files reader s ((Pipeline.start s).run files reader schedule) :=
  run_induct (fun _ turn h => h.turn hs hopen turn) schedule (start files reader s)

/-- **A new track is read from the store** as the consumer gets it. -/
theorem run_track? (h : Stored files reader s p) (hs : Sound s.tables) (hopen : s.isOpen = true)
    {a : Track} (ha : a ∈ p.added) :
    (Store.track? a.id).run p.store = (.ok (some a), p.store) := by
  have hids : Ascending (p.store.tables.joined.map (·.id)) := by
    rw [(h.sound hs).joined_ids]
    exact (h.sound hs).trackIds
  have hfind : p.store.tables.joined.find? (·.id = a.id) = some (a.row a.id) :=
    (find?_id_eq_some_iff hids).2 ⟨h.rows a ha, rfl⟩
  rw [Store.track?, Store.run_ask (h.isOpen hopen), Tables.readTrack, hfind]
  simp only [Track.toTrack_row]
  rfl

end Stored

end Pipeline
end Fonoteca
