import PubkySwap.Lib.KeyedMap

/-!
# Maps that evict their oldest entry

A bounded map can keep, beside its entries, the keys in the order they were
inserted.  When the map is full the oldest key still held makes room.  Removing
an entry for any other reason leaves its key in the queue, where it is skipped,
so the queue may name keys the map no longer holds, and may name one twice.

Two properties carry the discipline.  Every held key is queued (`Queued`), from
which the bound follows (`size_evict_lt`).  And eviction starts at the old end: a
key that few were queued after (`Recent`) stays while the map has room for it and
those few (`Recent.evict`).
-/

universe u v

namespace EvictingQueue

variable {K : Type u} {V : Type v}

/-- **Every held key is queued.** -/
def Queued (queue : List K) (held : AList fun _ : K => V) : Prop := ∀ k ∈ held, k ∈ queue

/-- The key is queued, and at most so many after its first place. -/
def Recent (k : K) (later : ℕ) (queue : List K) : Prop :=
  ∃ older newer, queue = older ++ k :: newer ∧ k ∉ older ∧ newer.length ≤ later

variable {queue : List K} {held : AList fun _ : K => V} {capacity later : ℕ} {k : K} {v : V}

/-- Dropping entries asks less. -/
theorem Queued.mono (h : Queued queue held) {held' : AList fun _ : K => V}
    (hsub : ∀ k ∈ held', k ∈ held) : Queued queue held' :=
  fun k hk => h k (hsub k hk)

/-- No more is held than is queued. -/
theorem Queued.size_le (h : Queued queue held) : held.size ≤ queue.length := by
  rw [← AList.length_keys]
  exact (held.keys_nodup.subperm fun k hk => h k (AList.mem_keys.mp hk)).length_le

/-- A key that was not queued is the newest once it is. -/
theorem recent_push (h : k ∉ queue) : Recent k 0 (queue ++ [k]) :=
  ⟨queue, [], rfl, h, le_rfl⟩

theorem Recent.mono {later' : ℕ} (h : Recent k later queue) (hle : later ≤ later') :
    Recent k later' queue := by
  obtain ⟨older, newer, heq, hnot, hfew⟩ := h
  exact ⟨older, newer, heq, hnot, hfew.trans hle⟩

theorem Recent.push (h : Recent k later queue) (k' : K) : Recent k (later + 1) (queue ++ [k']) := by
  obtain ⟨older, newer, rfl, hnot, hfew⟩ := h
  refine ⟨older, newer ++ [k'], by simp, hnot, ?_⟩
  rw [List.length_append]
  exact Nat.add_le_add_right hfew 1

/-- Compaction leaves the key where it is and can only bring it forward. -/
theorem Recent.filter {keep : K → Bool} (h : Recent k later queue) (hk : keep k = true) :
    Recent k later (queue.filter keep) := by
  obtain ⟨older, newer, rfl, hnot, hfew⟩ := h
  refine ⟨older.filter keep, newer.filter keep, ?_, ?_, ?_⟩
  · rw [List.filter_append, List.filter_cons_of_pos hk]
  · exact fun hmem => hnot (List.mem_filter.mp hmem).1
  · exact (List.length_filter_le _ _).trans hfew

/-! ## Eviction -/

variable [DecidableEq K]

/-- Drop the oldest keys until fewer than `capacity` are held, or the queue is
empty. -/
def evict (capacity : ℕ) : List K → (AList fun _ : K => V) → List K × AList fun _ : K => V
  | [], held => ([], held)
  | oldest :: queue, held =>
      if held.size < capacity then (oldest :: queue, held)
      else evict capacity queue (held.erase oldest)

/-- Compacting the queue forgets only keys that are not held. -/
theorem Queued.compact (h : Queued queue held) : Queued (queue.filter fun k => k ∈ held) held := by
  intro k hk
  exact List.mem_filter.mpr ⟨h k hk, by simpa using hk⟩

/-- An evicted key is no longer held, so the rest of the queue is enough. -/
theorem Queued.erase_head {oldest : K} (h : Queued (oldest :: queue) held) :
    Queued queue (held.erase oldest) := by
  intro k hk
  obtain ⟨hne, hk⟩ := AList.mem_erase.mp hk
  exact (List.mem_cons.mp (h k hk)).resolve_left hne

/-- **Eviction keeps what is held queued.** -/
theorem Queued.evict (h : Queued queue held) :
    Queued (evict capacity queue held).1 (evict capacity queue held).2 := by
  induction queue generalizing held with
  | nil => exact h
  | cons oldest queue ih =>
      rw [EvictingQueue.evict]
      split
      · exact h
      · exact ih h.erase_head

/-- What is inserted goes to the end. -/
theorem Queued.push (h : Queued queue held) (k : K) (v : V) :
    Queued (queue ++ [k]) (held.insert k v) := by
  intro k' hk'
  rcases (AList.mem_insert _).mp hk' with rfl | hheld
  · exact List.mem_append_right _ (List.mem_singleton.mpr rfl)
  · exact List.mem_append_left _ (h k' hheld)

/-- **Eviction makes room**, if the queue names everything held. -/
theorem size_evict_lt (h : Queued queue held) (hcapacity : 0 < capacity) :
    (evict capacity queue held).2.size < capacity := by
  induction queue generalizing held with
  | nil => exact h.size_le.trans_lt hcapacity
  | cons oldest queue ih =>
      rw [evict]
      split
      · assumption
      · exact ih h.erase_head

/-- Eviction only drops. -/
theorem lookup_of_lookup_evict (h : (evict capacity queue held).2.lookup k = some v) :
    held.lookup k = some v := by
  induction queue generalizing held with
  | nil => exact h
  | cons oldest queue ih =>
      rw [evict] at h
      split at h
      · exact h
      · exact (AList.lookup_erase_eq_some.mp (ih h)).2

theorem evict_queue_suffix (capacity : ℕ) (queue : List K) (held : AList fun _ : K => V) :
    (evict capacity queue held).1 <:+ queue := by
  induction queue generalizing held with
  | nil => exact List.suffix_rfl
  | cons oldest queue ih =>
      rw [evict]
      split
      · exact List.suffix_rfl
      · exact (ih _).trans (List.suffix_cons _ _)

/-- **Eviction spares what was queued lately**: it takes everything older first, and
then nothing but the key and what came after it can be held. -/
theorem Recent.evict (h : Recent k later queue) (hqueued : Queued queue held)
    (hroom : later + 1 < capacity) (hheld : held.lookup k = some v) :
    (evict capacity queue held).2.lookup k = some v ∧
      Recent k later (evict capacity queue held).1 := by
  obtain ⟨older, newer, rfl, hnot, hfew⟩ := h
  induction older generalizing held with
  | nil =>
      have hsize : held.size < capacity := by
        have hle := hqueued.size_le
        rw [List.nil_append, List.length_cons] at hle
        omega
      rw [List.nil_append, EvictingQueue.evict, if_pos hsize]
      exact ⟨hheld, [], newer, rfl, hnot, hfew⟩
  | cons oldest older ih =>
      rw [List.cons_append, EvictingQueue.evict]
      split
      · exact ⟨hheld, oldest :: older, newer, rfl, hnot, hfew⟩
      · have hne : k ≠ oldest := fun heq => hnot (heq ▸ List.mem_cons_self)
        have hnot : k ∉ older := fun hmem => hnot (List.mem_cons_of_mem _ hmem)
        exact ih (AList.lookup_erase_eq_some.mpr ⟨hne, hheld⟩) hqueued.erase_head hnot

end EvictingQueue
