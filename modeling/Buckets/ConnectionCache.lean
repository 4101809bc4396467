/-
# `storage/binary_transport.c`: who has a cached connection

`get_cached_connection` and `cache_connection` go along the slots of the cache, one lock at a time,
and any number of threads do so at once.  A thread keeps to the rule of a descriptor: it caches or
closes only what it holds.  Then a descriptor is always in ONE place, and the places are the
abstract model:

* `Tracks`: a map `owner` from each open descriptor to a slot or a thread says all that slots and
  threads have; connecting, closing, handing out and storing each change it at one descriptor;
* `connCache_run`: so every reachable state has such a map, and no close is made twice;
* the slot has 256 bytes for the host: a descriptor is handed out for the first 255 bytes of the
  host it was cached under, which is the host if `parse_endpoint` made it
  (`parseEndpoint_length_lt`) and another one otherwise (`connCache_cut_host`).
-/
import Buckets.BinaryTransport
import Buckets.Lib.Interleaving

namespace Buckets
namespace ConnectionCache

open CStr Strtoull

/-! ## 1. The cache and the threads -/

/-- Where a thread is. -/
inductive Pc where
  | idle
  /-- In the loop of `get_cached_connection`. -/
  | looking (host : CString) (port now : ℤ) (i : ℕ)
  /-- In the loop of `cache_connection`. -/
  | caching (fd : ℕ) (host : CString) (port now : ℤ) (i : ℕ) (oldestSlot : Fin connCacheSize)
      (oldestTime : ℤ)

/-- A descriptor that was handed out: for which host and port, and what it was cached under. -/
structure Handout where
  fd : ℕ
  host : CString
  port : ℤ
  under : CString × ℤ

structure State (T : Type) where
  /-- `g_cache_initialized`. -/
  initialized : Bool
  slots : Fin connCacheSize → CachedConn
  pc : T → Pc
  /-- The descriptors a thread has to cache or to close. -/
  holds : T → List ℕ
  isOpen : ℕ → Bool
  /-- How often a number was opened, and how often `close` was called on it. -/
  opened : ℕ → ℕ
  closed : ℕ → ℕ
  /-- The host and port of the last `cache_connection`. -/
  under : ℕ → CString × ℤ
  handouts : List Handout

inductive Event (T : Type) where
  /-- `create_tcp_connection` returns a descriptor. -/
  | connect (t : T) (fd : ℕ)
  | close (t : T) (fd : ℕ)
  | get (t : T) (host : CString) (port now : ℤ)
  | look (t : T)
  | cache (t : T) (fd : ℕ) (host : CString) (port now : ℤ)
  | store (t : T)

namespace State

variable {T : Type}

/-- Static memory is zero. -/
def start : State T where
  initialized := false
  slots := fun _ => ⟨some 0, [], 0, 0⟩
  pc := fun _ => .idle
  holds := fun _ => []
  isOpen := fun _ => false
  opened := fun _ => 0
  closed := fun _ => 0
  under := fun _ => ([], 0)
  handouts := []

/-- `init_conn_cache`. -/
def initConnCache (s : State T) : State T :=
  if s.initialized then s else { s with initialized := true, slots := fun _ => ⟨none, [], 0, 0⟩ }

variable [DecidableEq T]

def setPc (s : State T) (t : T) (pc : Pc) : State T := { s with pc := Function.update s.pc t pc }

/-- The system's `close`. -/
def closeFd (s : State T) (fd : ℕ) : State T :=
  { s with
    isOpen := Function.update s.isOpen fd false
    closed := Function.update s.closed fd (s.closed fd + 1) }

/-- The thread no longer has the descriptor. -/
def release (s : State T) (t : T) (fd : ℕ) : State T :=
  { s with holds := Function.update s.holds t ((s.holds t).filter (· ≠ fd)) }

/-- A slot is emptied, and its descriptor closed; it is filled before its lock is given back. -/
def evict (s : State T) (i : Fin connCacheSize) : State T :=
  match (s.slots i).fd with
  | some old =>
    { s.closeFd old with slots := Function.update s.slots i { s.slots i with fd := none } }
  | none => s

/-- The descriptor of a thread goes into a slot. -/
def fill (s : State T) (t : T) (i : Fin connCacheSize) (fd : ℕ) (host : CString) (port now : ℤ) :
    State T :=
  { s.release t fd with
    slots := Function.update s.slots i ⟨some fd, charArray 256 host, port, now⟩
    under := Function.update s.under fd (host, port) }

/-- The descriptor of a slot goes to a thread. -/
def handOut (s : State T) (t : T) (i : Fin connCacheSize) (fd : ℕ) (host : CString) (port : ℤ) :
    State T :=
  { s with
    slots := Function.update s.slots i { s.slots i with fd := none }
    holds := Function.update s.holds t (fd :: s.holds t)
    handouts := ⟨fd, host, port, s.under fd⟩ :: s.handouts }

/-- `get_cached_connection` at one slot, and at the end of its loop. -/
def getCachedConnection (s : State T) (t : T) (host : CString) (port now : ℤ) (i : ℕ) : State T :=
  if h : i < connCacheSize then
    match (s.slots ⟨i, h⟩).fd with
    | some fd =>
      if (s.slots ⟨i, h⟩).host = host ∧ (s.slots ⟨i, h⟩).port = port ∧
          now - (s.slots ⟨i, h⟩).lastUsed < 120 then
        (s.handOut t ⟨i, h⟩ fd host port).setPc t .idle
      else s.setPc t (.looking host port now (i + 1))
    | none => s.setPc t (.looking host port now (i + 1))
  else s.setPc t .idle

/-- `cache_connection` at one slot, and at the end of its loop. -/
def cacheConnection (s : State T) (t : T) (fd : ℕ) (host : CString) (port now : ℤ) (i : ℕ)
    (oldestSlot : Fin connCacheSize) (oldestTime : ℤ) : State T :=
  if h : i < connCacheSize then
    match (s.slots ⟨i, h⟩).fd with
    | none => (s.fill t ⟨i, h⟩ fd host port now).setPc t .idle
    | some _ =>
      if (s.slots ⟨i, h⟩).lastUsed < oldestTime then
        s.setPc t (.caching fd host port now (i + 1) ⟨i, h⟩ (s.slots ⟨i, h⟩).lastUsed)
      else s.setPc t (.caching fd host port now (i + 1) oldestSlot oldestTime)
  else ((s.evict oldestSlot).fill t oldestSlot fd host port now).setPc t .idle

def step (s : State T) : Event T → State T
  | .connect t fd =>
    { s with
      isOpen := Function.update s.isOpen fd true
      opened := Function.update s.opened fd (s.opened fd + 1)
      holds := Function.update s.holds t (fd :: s.holds t) }
  | .close t fd => (s.closeFd fd).release t fd
  | .get t host port now => s.initConnCache.setPc t (.looking host port now 0)
  | .look t =>
    match s.pc t with
    | .looking host port now i => s.getCachedConnection t host port now i
    | _ => s
  | .cache t fd host port now =>
    s.initConnCache.setPc t (.caching fd host port now 0 ⟨0, by decide⟩ now)
  | .store t =>
    match s.pc t with
    | .caching fd host port now i oldestSlot oldestTime =>
      s.cacheConnection t fd host port now i oldestSlot oldestTime
    | _ => s

def isIdle : Pc → Bool
  | .idle => true
  | _ => false

/-- A thread makes one call at a time, and caches and closes what it holds; the system opens a
number that is not open. -/
def enabled (s : State T) : Event T → Bool
  | .connect t fd => isIdle (s.pc t) && !s.isOpen fd
  | .close t fd => isIdle (s.pc t) && decide (fd ∈ s.holds t)
  | .get t _ _ _ => isIdle (s.pc t)
  | .cache t fd _ _ _ => isIdle (s.pc t) && decide (fd ∈ s.holds t)
  | .look _ => true
  | .store _ => true

end State

/-- The threads and the cache. -/
def connCache (T : Type) [DecidableEq T] : Machine (State T) (Event T) where
  enabled s e := s.enabled e = true
  step s e := some (s.step e)

/-! ## 2. The abstract model: one place for each open descriptor -/

section Owner

variable {T : Type} {s : State T}

/-- The descriptor in a slot, once the cache is initialised. -/
def slotFd (s : State T) (i : Fin connCacheSize) : Option ℕ :=
  if s.initialized then (s.slots i).fd else none

/-- A descriptor is in a slot, or with a thread. -/
def At (s : State T) (fd : ℕ) : Fin connCacheSize ⊕ T → Prop
  | .inl i => slotFd s i = some fd
  | .inr t => fd ∈ s.holds t

/-- `owner` says where every open descriptor is, and the slots know what they were filled with. -/
structure Tracks (s : State T) (owner : ℕ → Option (Fin connCacheSize ⊕ T)) : Prop where
  place : ∀ fd x, At s fd x ↔ owner fd = some x
  isOpen : ∀ fd, s.isOpen fd = (owner fd).isSome
  counted : ∀ fd, s.opened fd = s.closed fd + (owner fd).elim 0 fun _ => 1
  filed : ∀ i fd, slotFd s i = some fd →
    (s.slots i).host = charArray 256 (s.under fd).1 ∧ (s.slots i).port = (s.under fd).2
  handed : ∀ h ∈ s.handouts, h.host = charArray 256 h.under.1 ∧ h.port = h.under.2

theorem tracks_start : Tracks (State.start : State T) (fun _ => none) := by
  constructor <;> simp [State.start, slotFd, At, Sum.forall]

variable [DecidableEq T] {owner : ℕ → Option (Fin connCacheSize ⊕ T)} {t : T} {fd : ℕ}
  {i : Fin connCacheSize}

@[simp] theorem slotFd_setPc (pc : Pc) : slotFd (s.setPc t pc) = slotFd s := rfl

@[simp] theorem slotFd_connect : slotFd (s.step (.connect t fd)) = slotFd s := rfl

@[simp] theorem slotFd_release : slotFd (s.release t fd) = slotFd s := rfl

omit [DecidableEq T] in
@[simp] theorem slotFd_closeFd : slotFd (s.closeFd fd) = slotFd s := rfl

theorem Tracks.setPc (h : Tracks s owner) (t : T) (pc : Pc) : Tracks (s.setPc t pc) owner := by
  refine ⟨fun fd x => ?_, h.isOpen, h.counted, h.filed, h.handed⟩
  rw [← h.place]
  cases x <;> rfl

omit [DecidableEq T] in
theorem Tracks.init (h : Tracks s owner) : Tracks s.initConnCache owner := by
  cases hi : s.initialized with
  | true => simpa [State.initConnCache, hi] using h
  | false =>
    have h0 : ∀ i, slotFd s i = none := by simp [slotFd, hi]
    have h1 : ∀ i, slotFd s.initConnCache i = none := by simp [slotFd, State.initConnCache, hi]
    have h2 : s.initConnCache =
        { s with initialized := true, slots := fun _ => ⟨none, [], 0, 0⟩ } := by
      simp [State.initConnCache, hi]
    refine ⟨fun fd x => ?_, ?_, ?_, fun i fd hs => ?_, ?_⟩
    · rw [← h.place]
      cases x with
      | inl i => rw [At, At, h0, h1]
      | inr t => simp [At, h2]
    · simpa [h2] using h.isOpen
    · simpa [h2] using h.counted
    · simp [h1] at hs
    · simpa [h2] using h.handed

omit [DecidableEq T] in
/-- What happens to one descriptor leaves the places of the others. -/
theorem place_update {s' : State T} (h : Tracks s owner) {x : Option (Fin connCacheSize ⊕ T)}
    (h1 : ∀ y, At s' fd y ↔ x = some y) (h2 : ∀ g ≠ fd, ∀ y, At s' g y ↔ At s g y) (g : ℕ)
    (y : Fin connCacheSize ⊕ T) : At s' g y ↔ Function.update owner fd x g = some y := by
  by_cases hg : g = fd
  · rw [hg, Function.update_self, h1]
  · rw [Function.update_of_ne hg, h2 g hg, h.place]

/-- A number that is not open becomes the thread's. -/
theorem Tracks.connect (h : Tracks s owner) (hf : s.isOpen fd = false) :
    Tracks (s.step (.connect t fd)) (Function.update owner fd (some (.inr t))) := by
  have h0 : owner fd = none := by simpa [h.isOpen] using hf
  have h1 : ∀ y, ¬ At s fd y := by simp [h.place, h0]
  refine ⟨place_update h ?_ ?_, fun g => ?_, fun g => ?_, h.filed, h.handed⟩
  · rintro (i | t')
    · simpa [At] using h1 (.inl i)
    · have h2 := h1 (.inr t')
      by_cases ht : t' = t
      · simp [At, State.step, ht]
      · simpa [At, State.step, ht, Ne.symm ht] using h2
  · rintro g hg (i | t')
    · rfl
    · by_cases ht : t' = t <;> simp [At, State.step, ht, hg]
  · by_cases hg : g = fd <;> simp [State.step, hg, h.isOpen]
  · by_cases hg : g = fd
    · simp [State.step, hg, h.counted fd, h0]
    · simp [State.step, hg, h.counted g]

/-- The thread closes what it holds. -/
theorem Tracks.close (h : Tracks s owner) (hf : fd ∈ s.holds t) :
    Tracks ((s.closeFd fd).release t fd) (Function.update owner fd none) := by
  have h0 : owner fd = some (.inr t) := (h.place fd (.inr t)).mp hf
  refine ⟨place_update h ?_ ?_, fun g => ?_, fun g => ?_, h.filed, h.handed⟩
  · rintro (i | t')
    · have h2 : ¬ At s fd (.inl i) := by simp [h.place, h0]
      simpa [At] using h2
    · by_cases ht : t' = t
      · simp [At, State.release, ht]
      · have h2 : ¬ At s fd (.inr t') := by simp [h.place, h0, Ne.symm ht]
        simpa [At, State.release, State.closeFd, ht] using h2
  · rintro g hg (i | t')
    · rfl
    · by_cases ht : t' = t <;> simp [At, State.release, State.closeFd, ht, hg]
  · by_cases hg : g = fd <;> simp [State.release, State.closeFd, hg, h.isOpen]
  · by_cases hg : g = fd
    · simp [State.release, State.closeFd, hg, h.counted fd, h0]
    · simp [State.release, State.closeFd, hg, h.counted g]

omit [DecidableEq T] in
theorem slotFd_update (hi : s.initialized = true) (slot : CachedConn) (j : Fin connCacheSize) :
    slotFd { s with slots := Function.update s.slots i slot } j =
      if j = i then slot.fd else slotFd s j := by
  by_cases hj : j = i <;> simp [slotFd, hi, hj]

/-- The descriptor of a slot goes to a thread that asks for what it was cached under. -/
theorem Tracks.handOut (h : Tracks s owner) (hi : s.initialized = true)
    (hf : (s.slots i).fd = some fd) :
    Tracks (s.handOut t i fd (s.slots i).host (s.slots i).port)
      (Function.update owner fd (some (.inr t))) := by
  have hs : slotFd s i = some fd := by simp [slotFd, hi, hf]
  have h0 : owner fd = some (.inl i) := (h.place fd (.inl i)).mp hs
  have h1 : ∀ j, slotFd (s.handOut t i fd (s.slots i).host (s.slots i).port) j =
      if j = i then none else slotFd s j := slotFd_update hi _
  refine ⟨place_update h ?_ ?_, fun g => ?_, fun g => ?_, fun j g hg => ?_, ?_⟩
  · rintro (j | t')
    · have h2 : j ≠ i → ¬ At s fd (.inl j) := fun hj => by simp [h.place, h0, Ne.symm hj]
      by_cases hj : j = i
      · simp [At, h1, hj]
      · simpa [At, h1, hj] using h2 hj
    · have h2 : ¬ At s fd (.inr t') := by simp [h.place, h0]
      by_cases ht : t' = t
      · simp [At, State.handOut, ht]
      · simpa [At, State.handOut, ht, Ne.symm ht] using h2
  · rintro g hg (j | t')
    · by_cases hj : j = i
      · simp [At, h1, hj, hs, Ne.symm hg]
      · simp [At, h1, hj]
    · by_cases ht : t' = t <;> simp [At, State.handOut, ht, hg]
  · by_cases hg : g = fd
    · simp [State.handOut, hg, h.isOpen, h0]
    · simp [State.handOut, hg, h.isOpen]
  · by_cases hg : g = fd
    · simp [State.handOut, hg, h.counted fd, h0]
    · simp [State.handOut, hg, h.counted g]
  · rw [h1] at hg
    split at hg
    · simp at hg
    · rename_i hj
      simpa [State.handOut, hj] using h.filed j g hg
  · intro o ho
    rcases List.mem_cons.mp ho with rfl | ho
    · exact h.filed i fd hs
    · exact h.handed o ho

/-- The descriptor of a thread goes into an empty slot. -/
theorem Tracks.fill (h : Tracks s owner) (hi : s.initialized = true) (he : (s.slots i).fd = none)
    (hf : fd ∈ s.holds t) (host : CString) (port now : ℤ) :
    Tracks (s.fill t i fd host port now) (Function.update owner fd (some (.inl i))) := by
  have h0 : owner fd = some (.inr t) := (h.place fd (.inr t)).mp hf
  have hs : slotFd s i = none := by simp [slotFd, hi, he]
  have h1 : ∀ j, slotFd (s.fill t i fd host port now) j = if j = i then some fd else slotFd s j :=
    slotFd_update hi _
  refine ⟨place_update h ?_ ?_, fun g => ?_, fun g => ?_, fun j g hg => ?_, h.handed⟩
  · rintro (j | t')
    · have h2 : ¬ At s fd (.inl j) := by simp [h.place, h0]
      by_cases hj : j = i
      · simp [At, h1, hj]
      · simpa [At, h1, hj, Ne.symm hj] using h2
    · by_cases ht : t' = t
      · simp [At, State.fill, State.release, ht]
      · have h2 : ¬ At s fd (.inr t') := by simp [h.place, h0, Ne.symm ht]
        simpa [At, State.fill, State.release, ht] using h2
  · rintro g hg (j | t')
    · by_cases hj : j = i
      · simp [At, h1, hj, hs, Ne.symm hg]
      · simp [At, h1, hj]
    · by_cases ht : t' = t <;> simp [At, State.fill, State.release, ht, hg]
  · by_cases hg : g = fd
    · simp [State.fill, State.release, hg, h.isOpen, h0]
    · simp [State.fill, State.release, hg, h.isOpen]
  · by_cases hg : g = fd
    · simp [State.fill, State.release, hg, h.counted fd, h0]
    · simp [State.fill, State.release, hg, h.counted g]
  · rw [h1] at hg
    by_cases hj : j = i
    · rw [if_pos hj, Option.some.injEq] at hg
      simp [State.fill, hj, hg]
    · rw [if_neg hj] at hg
      have h2 : g ≠ fd := by
        rintro rfl
        have h3 := (h.place g (.inl j)).mp hg
        simp [h0] at h3
      simpa [State.fill, hj, h2] using h.filed j g hg

omit [DecidableEq T] in
/-- A slot is emptied, and its descriptor closed. -/
theorem Tracks.evict (h : Tracks s owner) (hi : s.initialized = true) :
    ∃ owner', Tracks (s.evict i) owner' := by
  cases hf : (s.slots i).fd with
  | none =>
    refine ⟨owner, ?_⟩
    simpa [State.evict, hf] using h
  | some old =>
    have hs : slotFd s i = some old := by simp [slotFd, hi, hf]
    have h0 : owner old = some (.inl i) := (h.place old (.inl i)).mp hs
    have he : s.evict i =
        { s.closeFd old with
          slots := Function.update s.slots i { s.slots i with fd := none } } := by
      simp [State.evict, hf]
    have h1 : ∀ j, slotFd (s.evict i) j = if j = i then none else slotFd s j := by
      intro j
      rw [he]
      exact slotFd_update (s := s.closeFd old) hi _ j
    refine ⟨Function.update owner old none, place_update h ?_ ?_, fun g => ?_, fun g => ?_,
      fun j g hg => ?_, ?_⟩
    · rintro (j | t')
      · by_cases hj : j = i
        · simp [At, h1, hj]
        · have h2 : ¬ At s old (.inl j) := by simp [h.place, h0, Ne.symm hj]
          simpa [At, h1, hj] using h2
      · have h2 : ¬ At s old (.inr t') := by simp [h.place, h0]
        simpa [At, he, State.closeFd] using h2
    · rintro g hg (j | t')
      · by_cases hj : j = i
        · simp [At, h1, hj, hs, Ne.symm hg]
        · simp [At, h1, hj]
      · simp [At, he, State.closeFd]
    · by_cases hg : g = old <;> simp [he, State.closeFd, hg, h.isOpen]
    · by_cases hg : g = old
      · simp [he, State.closeFd, hg, h.counted old, h0]
      · simp [he, State.closeFd, hg, h.counted g]
    · rw [h1] at hg
      split at hg
      · simp at hg
      · rename_i hj
        simpa [he, State.closeFd, hj] using h.filed j g hg
    · simpa [he, State.closeFd] using h.handed

/-! ## 3. Runs -/

/-- The descriptor of a call to cache is one of these. -/
def Pc.Held : Pc → List ℕ → Prop
  | .caching fd _ _ _ _ _ _, l => fd ∈ l
  | _, _ => True

/-- The invariant: descriptors are tracked, no call comes before `init_conn_cache`, and calls to
cache are for what the thread holds. -/
structure Inv (s : State T) : Prop where
  tracks : ∃ owner, Tracks s owner
  ready : s.initialized = false → ∀ t, s.pc t = .idle
  calling : ∀ t, (s.pc t).Held (s.holds t)

omit [DecidableEq T] in
theorem inv_start : Inv (State.start : State T) :=
  ⟨⟨_, tracks_start⟩, fun _ _ => rfl, fun _ => trivial⟩

/-- A step of `t` leaves the other threads with what they hold. -/
theorem Inv.setPc {s' : State T} {pc : Pc} (h : Inv s) (ht : ∃ owner, Tracks s' owner)
    (hi : s'.initialized = true) (hp : s'.pc = s.pc) (hh : ∀ t' ≠ t, s'.holds t' = s.holds t')
    (hc : pc.Held (s'.holds t)) : Inv (s'.setPc t pc) := by
  obtain ⟨owner, ht⟩ := ht
  refine ⟨⟨owner, ht.setPc t pc⟩, fun h0 => absurd (hi.symm.trans h0) (by decide), fun t' => ?_⟩
  by_cases htt : t' = t
  · simpa [State.setPc, htt] using hc
  · simpa [State.setPc, htt, hp, hh t' htt] using h.calling t'

omit [DecidableEq T] in
theorem Inv.initialized (h : Inv s) (hp : s.pc t ≠ .idle) : s.initialized = true := by
  by_contra h0
  exact hp (h.ready (by simpa using h0) t)

omit [DecidableEq T] in
theorem eq_idle {pc : Pc} (h : State.isIdle pc = true) : pc = .idle := by
  cases pc <;> simp_all [State.isIdle]

omit [DecidableEq T] in
@[simp] theorem holds_init : s.initConnCache.holds = s.holds := by
  rw [State.initConnCache]
  split <;> rfl

omit [DecidableEq T] in
@[simp] theorem pc_init : s.initConnCache.pc = s.pc := by
  rw [State.initConnCache]
  split <;> rfl

omit [DecidableEq T] in
@[simp] theorem initialized_init : s.initConnCache.initialized = true := by
  rw [State.initConnCache]
  split
  · assumption
  · rfl

omit [DecidableEq T] in
theorem evict_spec : (s.evict i).holds = s.holds ∧ (s.evict i).pc = s.pc ∧
    (s.evict i).initialized = s.initialized ∧ ((s.evict i).slots i).fd = none := by
  cases hf : (s.slots i).fd <;> simp [State.evict, State.closeFd, hf]

theorem inv_look (h : Inv s) : Inv (s.step (.look t)) := by
  rw [State.step]
  split
  · rename_i host port now k hp
    have hi : s.initialized = true := h.initialized (t := t) (by simp [hp])
    have hgo : ∀ pc : Pc, pc.Held (s.holds t) → Inv (s.setPc t pc) := fun pc hc =>
      h.setPc h.tracks hi rfl (fun _ _ => rfl) hc
    rw [State.getCachedConnection]
    split
    · rename_i hk
      split
      · rename_i fd hf
        split
        · rename_i hm
          obtain ⟨rfl, rfl, -⟩ := hm
          obtain ⟨owner, ho⟩ := h.tracks
          refine h.setPc ⟨_, ho.handOut hi hf⟩ hi rfl (fun t' ht => ?_) trivial
          simp [State.handOut, ht]
        · exact hgo _ trivial
      · exact hgo _ trivial
    · exact hgo _ trivial
  · exact h

theorem inv_store (h : Inv s) : Inv (s.step (.store t)) := by
  rw [State.step]
  split
  · rename_i fd host port now k oldest time hp
    have hi : s.initialized = true := h.initialized (t := t) (by simp [hp])
    have hf : fd ∈ s.holds t := by simpa [hp, Pc.Held] using h.calling t
    obtain ⟨owner, ho⟩ := h.tracks
    have hgo : ∀ pc : Pc, pc.Held (s.holds t) → Inv (s.setPc t pc) := fun pc hc =>
      h.setPc h.tracks hi rfl (fun _ _ => rfl) hc
    rw [State.cacheConnection]
    split
    · rename_i hk
      split
      · rename_i he
        refine h.setPc ⟨_, ho.fill hi he hf host port now⟩ hi rfl (fun t' ht => ?_) trivial
        simp [State.fill, State.release, ht]
      · split
        · exact hgo _ hf
        · exact hgo _ hf
    · obtain ⟨e1, e2, e3, e4⟩ := evict_spec (s := s) (i := oldest)
      obtain ⟨owner', ho'⟩ := ho.evict (i := oldest) hi
      refine h.setPc ⟨_, ho'.fill (e3.trans hi) e4 (e1 ▸ hf) host port now⟩ (e3.trans hi) ?_
        (fun t' ht => ?_) trivial
      · simp [State.fill, State.release, e2]
      · simp [State.fill, State.release, ht, e1]
  · exact h

/-- **One step.** -/
theorem inv_step {e : Event T} (h : Inv s) (he : s.enabled e = true) : Inv (s.step e) := by
  obtain ⟨owner, ho⟩ := h.tracks
  cases e with
  | connect t fd =>
    simp only [State.enabled, Bool.and_eq_true, Bool.not_eq_true'] at he
    refine ⟨⟨_, ho.connect he.2⟩, h.ready, fun t' => ?_⟩
    by_cases ht : t' = t
    · simp [State.step, ht, eq_idle he.1, Pc.Held]
    · simpa [State.step, ht] using h.calling t'
  | close t fd =>
    simp only [State.enabled, Bool.and_eq_true, decide_eq_true_eq] at he
    refine ⟨⟨_, ho.close he.2⟩, h.ready, fun t' => ?_⟩
    by_cases ht : t' = t
    · simp [State.step, State.release, State.closeFd, ht, eq_idle he.1, Pc.Held]
    · simpa [State.step, State.release, State.closeFd, ht] using h.calling t'
  | get t host port now =>
    exact h.setPc ⟨owner, ho.init⟩ (by simp) (by simp) (by simp) trivial
  | look t => exact inv_look h
  | cache t fd host port now =>
    simp only [State.enabled, Bool.and_eq_true, decide_eq_true_eq] at he
    exact h.setPc ⟨owner, ho.init⟩ (by simp) (by simp) (by simp) (by simpa [Pc.Held] using he.2)
  | store t => exact inv_store h

theorem inv_of_reachable (h : (connCache T).Reachable Machine.any State.start s) : Inv s := by
  refine h.invariant inv_start fun s e s' hs he _ hstep => ?_
  obtain rfl := Option.some.inj hstep
  exact inv_step hs he

/-- A descriptor stays in its slot, goes to a thread, or is evicted and closed by that. -/
def Kept (s s' : State T) (i : Fin connCacheSize) (fd : ℕ) : Prop :=
  slotFd s' i = some fd ∨ (∃ t, fd ∈ s'.holds t) ∨
    (s'.isOpen fd = false ∧ s'.closed fd = s.closed fd + 1)

theorem slotFd_fill (hi : s.initialized = true) (host : CString) (port now : ℤ)
    (j : Fin connCacheSize) :
    slotFd (s.fill t i fd host port now) j = if j = i then some fd else slotFd s j :=
  slotFd_update hi _ j

omit [DecidableEq T] in
theorem slotFd_evict (j : Fin connCacheSize) (hj : j ≠ i) : slotFd (s.evict i) j = slotFd s j := by
  cases hf : (s.slots i).fd <;> simp [State.evict, State.closeFd, slotFd, hf, hj]

theorem kept_step (e : Event T) (hs : slotFd s i = some fd) : Kept s (s.step e) i fd := by
  have hi : s.initialized = true := by
    by_contra h0
    simp [slotFd, h0] at hs
  have hf : (s.slots i).fd = some fd := by simpa [slotFd, hi] using hs
  have hinit : s.initConnCache = s := by simp [State.initConnCache, hi]
  cases e with
  | connect t g => exact .inl hs
  | close t g => exact .inl hs
  | get t host port now => exact .inl (by simpa [State.step, hinit] using hs)
  | cache t g host port now => exact .inl (by simpa [State.step, hinit] using hs)
  | look t =>
    rw [State.step]
    split
    · rw [State.getCachedConnection]
      split
      · rename_i hk
        split
        · rename_i g hg
          split
          · by_cases hj : i = ⟨_, hk⟩
            · -- This slot: the descriptor goes to the thread.
              have hgf : g = fd := Option.some.inj ((hj ▸ hg).symm.trans hf)
              exact .inr (.inl ⟨t, by simp [State.setPc, State.handOut, hgf]⟩)
            · refine .inl ?_
              rw [slotFd_setPc, ← hs]
              exact (slotFd_update hi _ i).trans (if_neg hj)
          · exact .inl hs
        · exact .inl hs
      · exact .inl hs
    · exact .inl hs
  | store t =>
    rw [State.step]
    split
    · rename_i g host port now k oldest time hp
      rw [State.cacheConnection]
      split
      · rename_i hk
        split
        · rename_i he
          refine .inl ?_
          have hj : i ≠ ⟨k, hk⟩ := by
            rintro rfl
            simp [hf] at he
          rw [slotFd_setPc, slotFd_fill hi, if_neg hj, hs]
        · split <;> exact .inl hs
      · by_cases hj : i = oldest
        · subst hj
          exact .inr (.inr (by
            simp [State.setPc, State.fill, State.release, State.evict, hf, State.closeFd]))
        · refine .inl ?_
          rw [slotFd_setPc, slotFd_fill (evict_spec.2.2.1.trans hi), if_neg hj,
            slotFd_evict i hj, hs]
    · exact .inl hs

end Owner

/-! ## 4. Hosts -/

/-- `parse_endpoint`, into an array of `hostLen` bytes. -/
def parseEndpoint (endpoint : CString) (hostLen : ℕ) : Option (CString × ℤ) :=
  (after (cstr "://") endpoint).bind fun hostStart =>
    match strchr hostStart 58 with
    | none =>
      let host := before hostStart 47
      if hostLen ≤ host.length then none else some (host, 80)
    | some portStart =>
      let host := before hostStart 58
      if hostLen ≤ host.length then none else some (host, atoi portStart.tail)

theorem parseEndpoint_length_lt {endpoint host : CString} {hostLen : ℕ} {port : ℤ}
    (h : parseEndpoint endpoint hostLen = some (host, port)) : host.length < hostLen := by
  obtain ⟨hostStart, -, h⟩ := Option.bind_eq_some_iff.mp h
  split at h
  all_goals
    dsimp only at h
    split at h
    · simp at h
    · simp only [Option.some.injEq, Prod.mk.injEq] at h
      obtain ⟨rfl, -⟩ := h
      omega

/-- **Every interleaving**: an open descriptor is in one place, with a thread or in a slot; each one
that is no longer open was closed once, and an eviction is such a close; and what is handed out is
for the port and the first 255 bytes of the host that it was cached under, which is the host
whenever the two callers cache it. -/
theorem connCache_run {T : Type} [DecidableEq T] {s : State T}
    (h : (connCache T).Reachable Machine.any State.start s) :
    (∀ fd, s.isOpen fd = true → ∃! place, At s fd place) ∧
    (∀ fd place, At s fd place → s.isOpen fd = true) ∧
    (∀ fd, s.opened fd = s.closed fd + if s.isOpen fd then 1 else 0) ∧
    (∀ e i fd, s.enabled e = true → slotFd s i = some fd → Kept s (s.step e) i fd) ∧
    (∀ o ∈ s.handouts, o.host = charArray 256 o.under.1 ∧ o.port = o.under.2 ∧
      ∀ endpoint, parseEndpoint endpoint 256 = some o.under → o.host = o.under.1) := by
  have hinv := inv_of_reachable h
  obtain ⟨owner, ho⟩ := hinv.tracks
  refine ⟨fun fd hf => ?_, fun fd x hx => ?_, fun fd => ?_, fun e i fd _ hs => kept_step e hs,
    fun o hm => ?_⟩
  · obtain ⟨x, hx⟩ := Option.isSome_iff_exists.mp ((ho.isOpen fd).symm.trans hf)
    refine ⟨x, (ho.place fd x).mpr hx, fun y hy => ?_⟩
    exact Option.some.inj (((ho.place fd y).mp hy).symm.trans hx)
  · rw [ho.isOpen, (ho.place fd x).mp hx]
    rfl
  · rw [ho.counted, ho.isOpen]
    cases owner fd <;> simp
  · obtain ⟨h1, h2⟩ := ho.handed o hm
    exact ⟨h1, h2, fun _ he => h1.trans (charArray_of_lt (parseEndpoint_length_lt he))⟩

/-- One thread connects and caches the connection under `host`; meanwhile another asks for `asked`,
and is given it. -/
def cacheThenGet (host asked : CString) : List (Event Bool) :=
  [.connect false 3, .cache false 3 host 80 0, .get true asked 80 1, .store false, .look true]

instance (s : State Bool) (e : Event Bool) : Decidable ((connCache Bool).enabled s e) :=
  inferInstanceAs (Decidable (s.enabled e = true))

theorem connCache_run_handout : ∃ s : State Bool,
    (connCache Bool).Reachable Machine.any State.start s ∧ s.handouts.length = 1 ∧
      (∀ fd, s.isOpen fd = true → ∃! place, At s fd place) ∧
      ∀ o ∈ s.handouts, o.host = charArray 256 o.under.1 := by
  have hrun :
    (((connCache Bool).run Machine.any State.start (cacheThenGet (cstr "n1") (cstr "n1"))).any
      fun s => s.handouts.length == 1) = true := by decide +kernel
  obtain ⟨s, hs, hl⟩ := Machine.exists_of_run hrun
  obtain ⟨h1, -, -, -, h2⟩ := connCache_run hs
  exact ⟨s, hs, by simpa using hl, h1, fun o ho => (h2 o ho).1⟩

/-- A host of 256 bytes does not fit a slot: its connection is handed out for another host. -/
theorem connCache_cut_host : ∃ s : State Bool,
    (connCache Bool).Reachable Machine.any State.start s ∧
      ∃ o ∈ s.handouts, o.host ≠ o.under.1 := by
  have hrun : (((connCache Bool).run Machine.any State.start
      (cacheThenGet (List.replicate 256 97) (List.replicate 255 97))).any
      fun s => s.handouts.any fun o => decide (o.host ≠ o.under.1)) = true := by decide +kernel
  obtain ⟨s, hs, ho⟩ := Machine.exists_of_run hrun
  obtain ⟨o, hm, hne⟩ := List.any_eq_true.mp ho
  exact ⟨s, hs, o, hm, of_decide_eq_true hne⟩

end ConnectionCache
end Buckets
