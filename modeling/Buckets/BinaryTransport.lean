/-
# `storage/binary_transport.c`, `storage/batch_transport.c`: requests on cached connections

A chunk write and a batch write go the same way: take a connection from the cache or connect, send
the request, receive until the HEADERS of the response are there, look at the status, and put the
connection into the cache.  Nothing receives the body.  If it came with the last piece of the
headers it is gone with the buffer; if it did not, it stays in the socket, and the next request
that takes the connection from the cache receives it first.

Any number of threads make requests.  A byte of a response is tagged with the request it answers,
and each receive is recorded with the request that it is for (`reads`), so that the reads of a
request can be compared with what was sent for it.

* `Inv.change`: a connection has ONE owner, a slot of the cache or a thread -- what a step has to
  show to keep that;
* `transport_own`: as long as every last piece of headers brings the whole response, each request
  reads its own response;
* `transport_body_late`: and not otherwise.
-/
import Buckets.Lib.CStr
import Buckets.Lib.Strtoull
import Buckets.Json

namespace Buckets

open CStr Strtoull

/-! ## 1. The parts -/

/-- `CONN_CACHE_SIZE`. -/
def connCacheSize : ℕ := 64

/-- `cached_conn_t`; an `fd` of -1 is `none`. -/
structure CachedConn where
  fd : Option ℕ
  host : CString
  port : ℤ
  lastUsed : ℤ

/-- A request, with the peer of its endpoint. -/
structure WriteRequest where
  id : ℕ
  host : CString
  port : ℤ

/-- `%d` of `sscanf`: the number, which glibc reads as a `long` and cuts to an `int`, and the rest
of the string. -/
def scanInt (s : CString) : Option (ℤ × CString) :=
  let (_, unsigned) := sign (s.dropWhile isSpace)
  let ds := digits 10 unsigned
  if ds = [] then none else some (atoi s, unsigned.drop ds.length)

/-- `sscanf(response, "HTTP/1.%*d %d", &status_code)`. -/
def parseStatus (response : CString) : Option ℤ :=
  if (cstr "HTTP/1.").isPrefixOf response then
    (scanInt (response.drop 7)).bind fun (_, rest) => (scanInt rest).map Prod.fst
  else none

/-- The receiving ends: the end of the headers is there, or the buffer is full. -/
def responseEnds (response : Bytes) : Bool :=
  (strstr (cstr "\r\n\r\n") (text response)).isSome || 1023 ≤ response.length

/-! ## 2. Threads, connections and the cache -/

/-- Where a thread is in a write. -/
inductive WritePc where
  | idle
  /-- In `get_cached_connection`, before a slot. -/
  | looking (req : WriteRequest) (now : ℤ) (i : ℕ)
  | connecting (req : WriteRequest)
  | sending (req : WriteRequest) (fd : ℕ)
  /-- In the loop around `recv`, with what was received. -/
  | receiving (req : WriteRequest) (fd : ℕ) (response : Bytes)
  /-- In `cache_connection`, before a slot. -/
  | caching (req : WriteRequest) (fd : ℕ) (now : ℤ) (i : ℕ) (oldestSlot : ℕ) (oldestTime : ℤ)

/-- The cache, what is unread on each open connection, and the threads. -/
structure TransportState (T : Type) where
  slots : ℕ → CachedConn
  socks : ℕ → Option (List (ℕ × UInt8))
  pc : T → WritePc
  /-- The requests so far. -/
  count : ℕ
  /-- Every receive: for which request, and the bytes with the request that each answers. -/
  reads : List (ℕ × List (ℕ × UInt8))

/-- A step of a thread, with what the system and the peer do. -/
inductive TransportEvent (T : Type) where
  | begin (t : T) (host : CString) (port now : ℤ)
  | look (t : T)
  | connect (t : T) (fd : Option ℕ)
  /-- The request is sent, and the peer answers it; `none` if sending fails. -/
  | send (t : T) (response : Option Bytes)
  /-- `recv` returns at most `k` bytes. -/
  | recv (t : T) (k : ℕ) (now : ℤ)
  | store (t : T)

namespace TransportState

variable {T : Type} [DecidableEq T]

/-- `init_conn_cache`. -/
def init : TransportState T where
  slots := fun _ => ⟨none, [], 0, 0⟩
  socks := fun _ => none
  pc := fun _ => .idle
  count := 0
  reads := []

def setPc (s : TransportState T) (t : T) (pc : WritePc) : TransportState T :=
  { s with pc := Function.update s.pc t pc }

def setSlot (s : TransportState T) (i : ℕ) (slot : CachedConn) : TransportState T :=
  { s with slots := Function.update s.slots i slot }

def setSock (s : TransportState T) (fd : ℕ) (unread : Option (List (ℕ × UInt8))) :
    TransportState T :=
  { s with socks := Function.update s.socks fd unread }

/-- `close_tcp_connection`. -/
def close (s : TransportState T) (fd : ℕ) : TransportState T := s.setSock fd none

/-- `get_cached_connection` at one slot. -/
def getCachedConnection (s : TransportState T) (t : T) (req : WriteRequest) (now : ℤ) (i : ℕ) :
    TransportState T :=
  if i < connCacheSize then
    match (s.slots i).fd with
    | some fd =>
      if (s.slots i).host = req.host ∧ (s.slots i).port = req.port ∧
          now - (s.slots i).lastUsed < 120 then
        (s.setSlot i { s.slots i with fd := none }).setPc t (.sending req fd)
      else s.setPc t (.looking req now (i + 1))
    | none => s.setPc t (.looking req now (i + 1))
  else s.setPc t (.connecting req)

/-- `cache_connection` at one slot, and at the end of its loop. -/
def cacheConnection (s : TransportState T) (t : T) (req : WriteRequest) (fd : ℕ) (now : ℤ) (i : ℕ)
    (oldestSlot : ℕ) (oldestTime : ℤ) : TransportState T :=
  if i < connCacheSize then
    match (s.slots i).fd with
    | none =>
      (s.setSlot i ⟨some fd, charArray 256 req.host, req.port, now⟩).setPc t .idle
    | some _ =>
      if (s.slots i).lastUsed < oldestTime then
        s.setPc t (.caching req fd now (i + 1) i (s.slots i).lastUsed)
      else s.setPc t (.caching req fd now (i + 1) oldestSlot oldestTime)
  else
    let s := match (s.slots oldestSlot).fd with
      | some old => s.close old
      | none => s
    (s.setSlot oldestSlot ⟨some fd, charArray 256 req.host, req.port, now⟩).setPc t .idle

/-- What a `recv` of at most `k` bytes returns, with room for the rest of 1023 bytes. -/
def received (s : TransportState T) (fd : ℕ) (response : Bytes) (k : ℕ) :
    List (ℕ × UInt8) × List (ℕ × UInt8) :=
  ((s.socks fd).getD []).splitAt (min k (1023 - response.length))

/-- One turn of the loop around `recv`, and what follows when it was the last. -/
def receive (s : TransportState T) (t : T) (req : WriteRequest) (fd : ℕ) (response : Bytes) (k : ℕ)
    (now : ℤ) : TransportState T :=
  let (got, rest) := s.received fd response k
  if got = [] then (s.close fd).setPc t .idle
  else
    let response := response ++ got.map Prod.snd
    let s := { s.setSock fd (some rest) with reads := (req.id, got) :: s.reads }
    if responseEnds response then
      if parseStatus (text response) = some 200 then s.setPc t (.caching req fd now 0 0 now)
      else (s.close fd).setPc t .idle
    else s.setPc t (.receiving req fd response)

def step (s : TransportState T) : TransportEvent T → TransportState T
  | .begin t host port now =>
    { s.setPc t (.looking ⟨s.count, host, port⟩ now 0) with count := s.count + 1 }
  | .look t =>
    match s.pc t with
    | .looking req now i => s.getCachedConnection t req now i
    | _ => s
  | .connect t fd =>
    match s.pc t with
    | .connecting req =>
      match fd with
      | some fd => (s.setSock fd (some [])).setPc t (.sending req fd)
      | none => s.setPc t .idle
    | _ => s
  | .send t response =>
    match s.pc t with
    | .sending req fd =>
      match response with
      | some response =>
        (s.setSock fd (some ((s.socks fd).getD [] ++ response.map fun b => (req.id, b)))).setPc t
          (.receiving req fd [])
      | none => (s.close fd).setPc t .idle
    | _ => s
  | .recv t k now =>
    match s.pc t with
    | .receiving req fd response => s.receive t req fd response k now
    | _ => s
  | .store t =>
    match s.pc t with
    | .caching req fd now i oldestSlot oldestTime =>
      s.cacheConnection t req fd now i oldestSlot oldestTime
    | _ => s

/-- A thread makes one write at a time, and a new descriptor is one that is not open. -/
def enabled (s : TransportState T) : TransportEvent T → Bool
  | .begin t _ _ _ =>
    match s.pc t with
    | .idle => true
    | _ => false
  | .connect _ (some fd) => (s.socks fd).isNone
  | _ => true

def run (s : TransportState T) (events : List (TransportEvent T)) : TransportState T :=
  events.foldl step s

/-- Every step is enabled and `ok`. -/
def Steps (ok : TransportState T → TransportEvent T → Bool) :
    TransportState T → List (TransportEvent T) → Prop
  | _, [] => True
  | s, e :: events => s.enabled e = true ∧ ok s e = true ∧ Steps ok (s.step e) events

instance decidableSteps (ok : TransportState T → TransportEvent T → Bool) :
    (s : TransportState T) → (events : List (TransportEvent T)) → Decidable (Steps ok s events)
  | _, [] => .isTrue trivial
  | s, e :: events =>
    have := decidableSteps ok (s.step e) events
    inferInstanceAs (Decidable (_ ∧ _ ∧ _))

/-- Every request read bytes of its own response only. -/
def Own (s : TransportState T) : Prop := ∀ r ∈ s.reads, ∀ b ∈ r.2, b.1 = r.1

instance (s : TransportState T) : Decidable s.Own :=
  inferInstanceAs (Decidable (∀ r ∈ s.reads, ∀ b ∈ r.2, b.1 = r.1))

/-- The piece that ends the receiving of a response that is accepted brings the rest of it. -/
def whole (s : TransportState T) : TransportEvent T → Bool
  | .recv t k _ =>
    match s.pc t with
    | .receiving _ fd response =>
      let (got, rest) := s.received fd response k
      let response := response ++ got.map Prod.snd
      !(responseEnds response && parseStatus (text response) = some 200) || rest.isEmpty
    | _ => true
  | _ => true

/-! ## 3. One owner -/

end TransportState

/-- The connection of a thread. -/
def WritePc.fd : WritePc → Option ℕ
  | .sending _ fd => some fd
  | .receiving _ fd _ => some fd
  | .caching _ fd _ _ _ _ => some fd
  | .idle | .looking _ _ _ | .connecting _ => none

/-- The thread waits for the response to this request. -/
def WritePc.Awaits (id : ℕ) : WritePc → Prop
  | .receiving req _ _ => id = req.id
  | _ => False

namespace TransportState

variable {T : Type} {s s' : TransportState T} {t : T} {fd : ℕ}

/-- The connection that a slot of the cache or a thread owns. -/
def holds (s : TransportState T) : ℕ ⊕ T → Option ℕ
  | .inl i => (s.slots i).fd
  | .inr t => (s.pc t).fd

/-- Unread bytes may be there for this owner. -/
def Awaits (s : TransportState T) (id : ℕ) : ℕ ⊕ T → Prop
  | .inl _ => False
  | .inr t => (s.pc t).Awaits id

/-- A connection has one owner and is open, and what is unread on it is what the owner awaits. -/
structure Inv (s : TransportState T) : Prop where
  apart : ∀ x y fd, s.holds x = some fd → s.holds y = some fd → x = y
  awaited : ∀ x fd, s.holds x = some fd →
    ∃ unread, s.socks fd = some unread ∧ ∀ b ∈ unread, s.Awaits b.1 x
  own : s.Own

theorem inv_init : (init : TransportState T).Inv where
  apart x _ _ h := by cases x <;> exact absurd h.symm (Option.some_ne_none _)
  awaited x _ h := by cases x <;> exact absurd h.symm (Option.some_ne_none _)
  own _ hr := absurd hr List.not_mem_nil

/-- **What a step has to show**: it `changes` some owners and leaves the others with their
connections, and at most one of those it changes has a connection after, which no other has. -/
theorem Inv.change (h : s.Inv) (changes : ℕ ⊕ T → Prop)
    (hkeep : ∀ x, ¬ changes x → s'.holds x = s.holds x ∧ ∀ id, s.Awaits id x → s'.Awaits id x)
    (hsocks : ∀ x fd, ¬ changes x → s.holds x = some fd → s'.socks fd = s.socks fd)
    (hone : ∀ x y, changes x → changes y → s'.holds x ≠ none → s'.holds y ≠ none → x = y)
    (hnew : ∀ x fd, changes x → s'.holds x = some fd →
      (∀ y, ¬ changes y → s.holds y ≠ some fd) ∧
      ∃ unread, s'.socks fd = some unread ∧ ∀ b ∈ unread, s'.Awaits b.1 x)
    (hown : s'.Own) : s'.Inv := by
  refine ⟨fun x y fd hx hy => ?_, fun x fd hx => ?_, hown⟩
  · by_cases hcx : changes x
    · by_cases hcy : changes y
      · refine hone x y hcx hcy ?_ ?_
        · rw [hx]
          exact Option.some_ne_none fd
        · rw [hy]
          exact Option.some_ne_none fd
      · rw [(hkeep y hcy).1] at hy
        exact absurd hy ((hnew x fd hcx hx).1 y hcy)
    · rw [(hkeep x hcx).1] at hx
      by_cases hcy : changes y
      · exact absurd hx ((hnew y fd hcy hy).1 x hcx)
      · rw [(hkeep y hcy).1] at hy
        exact h.apart x y fd hx hy
  · by_cases hcx : changes x
    · exact (hnew x fd hcx hx).2
    · obtain ⟨hsame, hawaits⟩ := hkeep x hcx
      rw [hsame] at hx
      obtain ⟨unread, hunread, hall⟩ := h.awaited x fd hx
      refine ⟨unread, ?_, fun b hb => hawaits b.1 (hall b hb)⟩
      rw [hsocks x fd hcx hx, hunread]

/-- Two owners have two connections. -/
theorem Inv.ne (h : s.Inv) {x y : ℕ ⊕ T} {fd' : ℕ} (hx : s.holds x = some fd)
    (hy : s.holds y = some fd') (hxy : x ≠ y) : fd ≠ fd' := by
  rintro rfl
  exact hxy (h.apart x y fd hx hy)

/-- A slot of the cache has nothing unread. -/
theorem Inv.slot_clean (h : s.Inv) {i : ℕ} (hi : (s.slots i).fd = some fd) :
    s.socks fd = some [] := by
  obtain ⟨unread, hunread, hall⟩ := h.awaited (.inl i) fd hi
  rw [hunread, List.eq_nil_iff_forall_not_mem.mpr hall]

/-- Nor has a thread that does not await a response. -/
theorem Inv.thread_clean (h : s.Inv) (ht : (s.pc t).fd = some fd)
    (hnot : ∀ id, ¬ (s.pc t).Awaits id) : s.socks fd = some [] := by
  obtain ⟨unread, hunread, hall⟩ := h.awaited (.inr t) fd ht
  have hnil : unread = [] := by
    refine List.eq_nil_iff_forall_not_mem.mpr fun b hb => ?_
    exact hnot b.1 (hall b hb)
  rw [hunread, hnil]

/-- What is received and what is left are of what was unread. -/
theorem mem_received {unread : List (ℕ × UInt8)} (hunread : s.socks fd = some unread)
    (response : Bytes) (k : ℕ) :
    (∀ b ∈ (s.received fd response k).1, b ∈ unread) ∧
      ∀ b ∈ (s.received fd response k).2, b ∈ unread := by
  rw [received, hunread, Option.getD_some, List.splitAt_eq]
  exact ⟨fun b hb => List.mem_of_mem_take hb, fun b hb => List.mem_of_mem_drop hb⟩

section Steps

variable [DecidableEq T]

/-- A step that changes a thread. -/
theorem Inv.thread (h : s.Inv) {pc : WritePc} (hslots : s'.slots = s.slots)
    (hpc : s'.pc = Function.update s.pc t pc)
    (hsocks : ∀ x fd, x ≠ .inr t → s.holds x = some fd → s'.socks fd = s.socks fd)
    (hnew : ∀ fd, pc.fd = some fd → (∀ x, x ≠ .inr t → s.holds x ≠ some fd) ∧
      ∃ unread, s'.socks fd = some unread ∧ ∀ b ∈ unread, pc.Awaits b.1)
    (hown : s'.Own) : s'.Inv := by
  have hself : s'.pc t = pc := by rw [hpc, Function.update_self]
  refine h.change (· = .inr t) ?_ hsocks ?_ ?_ hown
  · rintro (i | t') hx
    · exact ⟨congrArg (fun slots => (slots i).fd) hslots, fun _ h => h⟩
    · have ht' : s'.pc t' = s.pc t' := by
        rw [hpc, Function.update_of_ne fun heq : t' = t => hx (heq ▸ rfl)]
      refine ⟨congrArg WritePc.fd ht', fun id hid => ?_⟩
      have hawaits : (s'.pc t').Awaits id := by
        rw [ht']
        exact hid
      exact hawaits
  · rintro x y rfl rfl - -
    rfl
  · rintro x fd rfl hx
    rw [holds, hself] at hx
    obtain ⟨hothers, unread, hunread, hall⟩ := hnew fd hx
    refine ⟨hothers, unread, hunread, fun b hb => ?_⟩
    rw [Awaits, hself]
    exact hall b hb

/-- A step that changes a thread and a slot of the cache. -/
theorem Inv.threadSlot (h : s.Inv) {pc : WritePc} {i : ℕ} {slot : CachedConn}
    (hslots : s'.slots = Function.update s.slots i slot) (hpc : s'.pc = Function.update s.pc t pc)
    (hsocks : ∀ x fd, x ≠ .inl i → x ≠ .inr t → s.holds x = some fd → s'.socks fd = s.socks fd)
    (hone : pc.fd = none ∨ slot.fd = none)
    (hnew : ∀ fd, pc.fd = some fd ∨ slot.fd = some fd →
      (∀ x, x ≠ .inl i → x ≠ .inr t → s.holds x ≠ some fd) ∧ s'.socks fd = some [])
    (hown : s'.Own) : s'.Inv := by
  have hself : s'.holds (.inr t) = pc.fd := by rw [holds, hpc, Function.update_self]
  have hslot : s'.holds (.inl i) = slot.fd := by rw [holds, hslots, Function.update_self]
  refine h.change (fun x => x = .inl i ∨ x = .inr t) ?_ ?_ ?_ ?_ hown
  · rintro (j | t') hx
    · have hj : j ≠ i := fun heq => hx (.inl (heq ▸ rfl))
      rw [holds, holds, hslots, Function.update_of_ne hj]
      exact ⟨rfl, fun _ h => h⟩
    · have ht' : s'.pc t' = s.pc t' := by
        rw [hpc, Function.update_of_ne fun heq : t' = t => hx (.inr (heq ▸ rfl))]
      refine ⟨congrArg WritePc.fd ht', fun id hid => ?_⟩
      have hawaits : (s'.pc t').Awaits id := by
        rw [ht']
        exact hid
      exact hawaits
  · intro x fd hx
    exact hsocks x fd (fun heq => hx (.inl heq)) (fun heq => hx (.inr heq))
  · rintro x y (rfl | rfl) (rfl | rfl) hx hy
    · rfl
    · rw [hslot] at hx
      rw [hself] at hy
      exact (hone.elim hy hx).elim
    · rw [hself] at hx
      rw [hslot] at hy
      exact (hone.elim hx hy).elim
    · rfl
  · intro x fd hx hfd
    have hfd' : pc.fd = some fd ∨ slot.fd = some fd := by
      rcases hx with rfl | rfl
      · exact .inr (hslot ▸ hfd)
      · exact .inl (hself ▸ hfd)
    obtain ⟨hothers, hclean⟩ := hnew fd hfd'
    refine ⟨fun y hy => hothers y (fun heq => hy (.inl heq)) (fun heq => hy (.inr heq)), [],
      hclean, ?_⟩
    exact fun b hb => absurd hb List.not_mem_nil

/-! ## 4. The steps -/

/-- A thread goes on without a connection. -/
theorem Inv.free (h : s.Inv) {pc : WritePc} (hpc : pc.fd = none) : (s.setPc t pc).Inv := by
  refine h.thread rfl rfl (fun _ _ _ _ => rfl) (fun fd hfd => ?_) h.own
  rw [hpc] at hfd
  exact absurd hfd.symm (Option.some_ne_none fd)

/-- A thread closes its connection. -/
theorem Inv.closed (h : s.Inv) (ht : (s.pc t).fd = some fd) : ((s.close fd).setPc t .idle).Inv := by
  refine h.thread rfl rfl (fun x fd' hx hfd' => ?_) (fun fd' hfd' => ?_) h.own
  · exact Function.update_of_ne (h.ne hfd' (y := .inr t) ht hx) ..
  · exact absurd hfd'.symm (Option.some_ne_none fd')

variable {req : WriteRequest}

theorem Inv.getCachedConnection (h : s.Inv) {now : ℤ} {i : ℕ} :
    (s.getCachedConnection t req now i).Inv := by
  rw [TransportState.getCachedConnection]
  split
  · split
    · rename_i fd hfd
      split
      · have hclean := h.slot_clean hfd
        refine h.threadSlot rfl rfl (fun _ _ _ _ _ => rfl) (.inr rfl) (fun fd' hfd' => ?_) h.own
        have heq : fd = fd' := by
          rcases hfd' with hfd' | hfd'
          · exact Option.some.inj hfd'
          · exact absurd hfd'.symm (Option.some_ne_none fd')
        subst heq
        exact ⟨fun x hx _ hxfd => hx (h.apart x (.inl i) fd hxfd hfd), hclean⟩
      · exact h.free rfl
    · exact h.free rfl
  · exact h.free rfl

/-- The connection of a thread, with nothing unread, goes to a slot. -/
theorem Inv.put (h : s.Inv) {j : ℕ} {slot : CachedConn} (ht : (s.pc t).fd = some fd)
    (hslot : slot.fd = some fd) (hslots : s'.slots = Function.update s.slots j slot)
    (hpc : s'.pc = Function.update s.pc t .idle)
    (hsocks : ∀ x fd', x ≠ .inl j → s.holds x = some fd' → s'.socks fd' = s.socks fd')
    (hclean : s.socks fd = some []) (hown : s'.Own) : s'.Inv := by
  refine h.threadSlot hslots hpc (fun x fd' hx _ => hsocks x fd' hx) (.inl rfl) ?_ hown
  intro fd' hfd'
  have heq : fd = fd' := by
    rcases hfd' with hfd' | hfd'
    · exact absurd hfd'.symm (Option.some_ne_none fd')
    · exact Option.some.inj (hslot.symm.trans hfd')
  subst heq
  refine ⟨fun x _ hx hxfd => hx (h.apart x (.inr t) fd hxfd ht), ?_⟩
  rw [hsocks (.inr t) fd (fun heq => nomatch heq) ht, hclean]

theorem Inv.cacheConnection (h : s.Inv) {now oldestTime : ℤ}
    {i oldestSlot : ℕ} (hpc : s.pc t = .caching req fd now i oldestSlot oldestTime) :
    (s.cacheConnection t req fd now i oldestSlot oldestTime).Inv := by
  have ht : (s.pc t).fd = some fd := by
    rw [hpc]
    rfl
  have hclean : s.socks fd = some [] := by
    refine h.thread_clean ht fun id hid => ?_
    rw [hpc] at hid
    exact hid
  have hgoOn : ∀ pc : WritePc, pc.fd = some fd → (s.setPc t pc).Inv := by
    intro pc hfd
    refine h.thread rfl rfl (fun _ _ _ _ => rfl) (fun fd' hfd' => ?_) h.own
    obtain rfl := Option.some.inj (hfd.symm.trans hfd')
    refine ⟨fun x hx hxfd => hx (h.apart x (.inr t) fd hxfd ht), [], hclean, ?_⟩
    exact fun b hb => absurd hb List.not_mem_nil
  rw [TransportState.cacheConnection]
  split
  · split
    · exact h.put ht rfl rfl rfl (fun _ _ _ _ => rfl) hclean h.own
    · split
      · exact hgoOn _ rfl
      · exact hgoOn _ rfl
  · cases hold : (s.slots oldestSlot).fd with
    | none => exact h.put ht rfl rfl rfl (fun _ _ _ _ => rfl) hclean h.own
    | some old =>
      refine h.put ht rfl rfl rfl (fun x fd' hx hfd' => ?_) hclean h.own
      exact Function.update_of_ne (h.ne hfd' (y := .inl oldestSlot) hold hx) ..

/-- **A receive**: what it reads is of the response that the thread awaits, and if it goes on to put
the connection into the cache nothing of that is left. -/
theorem Inv.receive (h : s.Inv) {response : Bytes} {k : ℕ} {now : ℤ}
    (hpc : s.pc t = .receiving req fd response) (hwhole : s.whole (.recv t k now) = true) :
    (s.receive t req fd response k now).Inv := by
  have ht : (s.pc t).fd = some fd := by
    rw [hpc]
    rfl
  obtain ⟨unread, hunread, hall⟩ := h.awaited (.inr t) fd ht
  have hmine : ∀ b ∈ unread, b.1 = req.id := by
    intro b hb
    have hawaits : (s.pc t).Awaits b.1 := hall b hb
    rwa [hpc] at hawaits
  obtain ⟨hgot, hrest⟩ := mem_received hunread response k
  have hothers : ∀ x fd', x ≠ .inr t → s.holds x = some fd' → fd' ≠ fd := fun x fd' hx hfd' =>
    h.ne hfd' (y := .inr t) ht hx
  simp only [whole, hpc] at hwhole
  rw [TransportState.receive]
  generalize s.received fd response k = parts at hgot hrest hwhole ⊢
  obtain ⟨got, rest⟩ := parts
  have hown : ∀ r ∈ (req.id, got) :: s.reads, ∀ b ∈ r.2, b.1 = r.1 := by
    intro r hr
    rcases List.mem_cons.mp hr with rfl | hr
    · exact fun b hb => hmine b (hgot b hb)
    · exact h.own r hr
  have hkeep : ∀ {pc : WritePc}, pc.fd = some fd → (∀ b ∈ rest, pc.Awaits b.1) →
      ({ s.setSock fd (some rest) with reads := (req.id, got) :: s.reads }.setPc t pc).Inv := by
    intro pc hfd hawaits
    refine h.thread rfl rfl (fun x fd' hx hfd' => ?_) (fun fd' hfd' => ?_) hown
    · exact Function.update_of_ne (hothers x fd' hx hfd') ..
    · obtain rfl := Option.some.inj (hfd.symm.trans hfd')
      refine ⟨fun x hx hxfd => hx (h.apart x (.inr t) fd hxfd ht), rest, ?_, hawaits⟩
      exact Function.update_self ..
  simp only
  split
  · exact h.closed ht
  · split
    · rename_i hends
      split
      · rename_i hstatus
        refine hkeep rfl fun b hb => ?_
        simp only [hends, hstatus, decide_true, Bool.and_true, Bool.not_true,
          Bool.false_or] at hwhole
        rw [List.isEmpty_iff.mp hwhole] at hb
        exact absurd hb List.not_mem_nil
      · refine h.thread rfl rfl (fun x fd' hx hfd' => ?_) (fun fd' hfd' => ?_) hown
        · have hne := hothers x fd' hx hfd'
          exact (Function.update_of_ne hne ..).trans (Function.update_of_ne hne ..)
        · exact absurd hfd'.symm (Option.some_ne_none fd')
    · exact hkeep rfl fun b hb => hmine b (hrest b hb)

theorem Inv.connect (h : s.Inv) (hfd : s.socks fd = none) :
    ((s.setSock fd (some [])).setPc t (.sending req fd)).Inv := by
  have hfree : ∀ x, s.holds x ≠ some fd := by
    intro x hx
    obtain ⟨unread, hunread, -⟩ := h.awaited x fd hx
    rw [hfd] at hunread
    exact Option.some_ne_none unread hunread.symm
  refine h.thread rfl rfl (fun x fd' _ hfd' => ?_) (fun fd' hfd' => ?_) h.own
  · exact Function.update_of_ne (fun heq : fd' = fd => hfree x (heq ▸ hfd')) ..
  · obtain rfl := Option.some.inj hfd'
    refine ⟨fun x _ => hfree x, [], Function.update_self .., ?_⟩
    exact fun b hb => absurd hb List.not_mem_nil

theorem Inv.send (h : s.Inv) (hpc : s.pc t = .sending req fd)
    (response : Bytes) :
    ((s.setSock fd (some ((s.socks fd).getD [] ++ response.map fun b => (req.id, b)))).setPc t
      (.receiving req fd [])).Inv := by
  have ht : (s.pc t).fd = some fd := by
    rw [hpc]
    rfl
  have hclean : s.socks fd = some [] := by
    refine h.thread_clean ht fun id hid => ?_
    rw [hpc] at hid
    exact hid
  refine h.thread rfl rfl (fun x fd' hx hfd' => ?_) (fun fd' hfd' => ?_) h.own
  · exact Function.update_of_ne (h.ne hfd' (y := .inr t) ht hx) ..
  · obtain rfl := Option.some.inj hfd'
    refine ⟨fun x hx hxfd => hx (h.apart x (.inr t) fd hxfd ht), _, Function.update_self .., ?_⟩
    intro b hb
    rw [hclean, Option.getD_some, List.nil_append] at hb
    obtain ⟨c, -, rfl⟩ := List.mem_map.mp hb
    rfl

/-- **Every step** keeps the owners apart, if pieces that end a response bring all of it. -/
theorem Inv.step (h : s.Inv) {e : TransportEvent T} (henabled : s.enabled e = true)
    (hwhole : s.whole e = true) : (s.step e).Inv := by
  cases e with
  | begin t host port now =>
    refine h.thread rfl rfl (fun _ _ _ _ => rfl) (fun fd hfd => ?_) h.own
    exact absurd hfd.symm (Option.some_ne_none fd)
  | look t =>
    rw [TransportState.step]
    split
    · exact h.getCachedConnection
    · exact h
  | connect t fd =>
    rw [TransportState.step]
    split
    · cases fd with
      | none => exact h.free rfl
      | some fd => exact h.connect (Option.isNone_iff_eq_none.mp henabled)
    · exact h
  | send t response =>
    rw [TransportState.step]
    split
    · rename_i req fd hpc
      cases response with
      | none => exact h.closed (by rw [hpc]; rfl)
      | some response => exact h.send hpc response
    · exact h
  | recv t k now =>
    rw [TransportState.step]
    split
    · rename_i req fd response hpc
      exact h.receive hpc hwhole
    · exact h
  | store t =>
    rw [TransportState.step]
    split
    · rename_i req fd now i oldestSlot oldestTime hpc
      exact h.cacheConnection hpc
    · exact h

theorem Inv.run (h : s.Inv) {events : List (TransportEvent T)} (hsteps : Steps whole s events) :
    (s.run events).Inv := by
  induction events generalizing s with
  | nil => exact h
  | cons e events ih =>
    obtain ⟨henabled, hwhole, hsteps⟩ := hsteps
    exact ih (h.step henabled hwhole) hsteps

end Steps

end TransportState

/-- **As long as the piece that ends a response brings all of it**, every request reads its own
response: over every interleaving of any threads, any peers and any state of the cache. -/
theorem transport_own {T : Type} [DecidableEq T] {events : List (TransportEvent T)}
    (hsteps : TransportState.Steps TransportState.whole .init events) :
    (TransportState.init.run events).Own :=
  (TransportState.inv_init.run hsteps).own

/-- What the server answers to a chunk that it wrote. -/
def chunkWritten : Bytes :=
  cstr "HTTP/1.1 200 OK\r\nContent-Length: 2\r\nConnection: keep-alive\r\n\r\nOK"

/-- One thread makes two writes to one peer; the first `recv` returns at most `k` bytes. -/
def twoWrites (k : ℕ) : List (TransportEvent Unit) :=
  [.begin () (cstr "localhost") 9001 100] ++ List.replicate 65 (.look ()) ++
    [.connect () (some 3), .send () (some chunkWritten), .recv () k 100, .store (),
      .begin () (cstr "localhost") 9001 101, .look (), .send () (some chunkWritten),
        .recv () 64 101]

theorem transport_own_two_writes :
    TransportState.Steps TransportState.whole .init (twoWrites 64) ∧
      (TransportState.init.run (twoWrites 64)).Own := by
  have hsteps : TransportState.Steps TransportState.whole .init (twoWrites 64) := by decide +kernel
  exact ⟨hsteps, transport_own hsteps⟩

/-- **The body comes late**: the second write reads the `OK` of the first as the start of its own
response. -/
theorem transport_body_late :
    TransportState.Steps (fun _ _ => true) .init (twoWrites 62) ∧
      ¬ (TransportState.init.run (twoWrites 62)).Own := by
  decide +kernel

end Buckets
