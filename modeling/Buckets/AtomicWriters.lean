/-
# Concurrent calls of `buckets_atomic_write`

The temporary name depends on the path and the process only, so all threads of a process that write
to one path use ONE temporary file.  A call that opens it while another call has it empties the file
under that call, and the other call then renames what it did not write.

Calls run step by step, one system call at a time, in any order; no system call fails that could
succeed.

* `Mode.Owns`: what a call knows of the temporary file while it has it;
* `atomicWriters_exclusive`: if a call opens the temporary file only when there is none, the target
  always has the data of one call, or what it had before, and who returned OK had its data there;
* `atomicWriters_truncated`: without that the target is an empty file that nobody wrote, and the
  call that installed it returns OK.
-/
import Buckets.Lib.Interleaving
import Buckets.AtomicIo

namespace Buckets

open FileSystem

/-! ## 1. The calls -/

/-- A call for each `T`: where it writes to and what. -/
structure WriteCalls (T : Type) where
  pid : ℕ
  dir : Path
  name : CString
  data : T → Bytes
  kept : T → ℕ

namespace WriteCalls

variable {T : Type} (calls : WriteCalls T)

def path : Path := calls.name :: calls.dir

def temp : Path := tempName calls.name calls.pid :: calls.dir

def protocol (t : T) : Protocol (Call Path) Answer Mode :=
  tempFile calls.temp calls.path (calls.data t)

theorem temp_ne_path : calls.temp ≠ calls.path := fun h =>
  tempName_ne calls.name calls.pid (List.cons.inj h).1

end WriteCalls

/-- The files, what is left of each call, which calls have begun, and whose data was at the target
at a moment of its call. -/
structure Writers (T : Type) where
  fs : Fs CString
  prog : T → Sys IoRet
  started : T → Bool
  installed : T → Bool

namespace Writers

variable {T : Type} [DecidableEq T] (calls : WriteCalls T)

def start (fs : Fs CString) : Writers T where
  fs := fs
  prog t := atomicWrite calls.pid (calls.kept t) (some (calls.dir, calls.name))
    (some (calls.data t))
  started _ := false
  installed _ := false

/-- The call has begun and not returned. -/
def running (s : Writers T) (t : T) : Bool := s.started t && (s.prog t).result.isNone

/-- The calls whose data is at the target now. -/
def observe (s : Writers T) (fs : Fs CString) (t : T) : Bool :=
  s.installed t || (s.running t && fs.content calls.path == some (calls.data t))

/-- The state after a system call of a call. -/
def after (s : Writers T) (t : T) (prog : Sys IoRet) (fs : Fs CString) : Writers T where
  fs := fs
  prog := Function.update s.prog t prog
  started := Function.update s.started t true
  installed := { s with started := Function.update s.started t true }.observe calls fs

/-- The next system call of a call, with its answer. -/
def step (s : Writers T) (e : T × Answer) : Option (Writers T) :=
  match s.prog e.1 with
  | .pure _ => none
  | .call op next => (s.fs.perform op e.2).map fun fs => s.after calls e.1 (next e.2) fs

/-- A system call fails only where it cannot succeed. -/
def Enabled (s : Writers T) (e : T × Answer) : Prop :=
  match s.prog e.1 with
  | .pure _ => False
  | .call op _ => e.2 = .failed → ¬ s.fs.CanSucceed op

instance (s : Writers T) (e : T × Answer) : Decidable (s.Enabled e) := by
  unfold Enabled
  split <;> infer_instance

def machine : Machine (Writers T) (T × Answer) := ⟨Enabled, step calls⟩

instance (s : Writers T) (e : T × Answer) : Decidable ((machine calls).enabled s e) :=
  inferInstanceAs (Decidable (s.Enabled e))

/-- A call opens the temporary file only when there is none. -/
def Exclusive (s : Writers T) (e : T × Answer) : Prop :=
  match s.prog e.1 with
  | .call (.openTrunc p) _ => s.fs.names p = none
  | _ => True

instance (s : Writers T) (e : T × Answer) : Decidable (s.Exclusive e) := by
  unfold Exclusive
  split <;> infer_instance

end Writers

/-! ## 2. Who has the temporary file -/

/-- The temporary name stands for a file that is not the target. -/
structure TempIs (fs : Fs CString) (temp path : Path) (i : ℕ) : Prop where
  named : fs.names temp = some (.file i)
  apart : fs.names path ≠ some (.file i)

/-- The call has the temporary file. -/
def Mode.owner : Mode → Bool
  | .writing _ _ | .spoiled _ | .synced _ | .closed | .abandoned => true
  | .idle | .unlinked | .renamed | .durable => false

/-- What a call knows of the temporary file. -/
def Mode.Owns (temp path : Path) (data : Bytes) (fs : Fs CString) : Mode → Prop
  | .writing fd n => n ≤ data.length ∧
      ∃ i, fs.fds fd = some (i, n) ∧ TempIs fs temp path i ∧ fs.data i = data.take n
  | .synced _ | .closed => ∃ i, TempIs fs temp path i ∧ fs.data i = data
  | .abandoned => ∃ i, TempIs fs temp path i
  | .spoiled _ => False
  | .idle | .unlinked | .renamed | .durable => True

section Owns

variable {temp path : Path} {data : Bytes} {fs fs' : Fs CString} {mode : Mode}

theorem TempIs.frame {i : ℕ} (h : TempIs fs temp path i) (htemp : fs'.names temp = fs.names temp)
    (hpath : fs'.names path = fs.names path) : TempIs fs' temp path i := by
  constructor
  · rw [htemp]
    exact h.named
  · rw [hpath]
    exact h.apart

/-- Other names may change. -/
theorem Mode.Owns.frame (h : mode.Owns temp path data fs) (htemp : fs'.names temp = fs.names temp)
    (hpath : fs'.names path = fs.names path) (hfds : fs'.fds = fs.fds)
    (hdata : fs'.data = fs.data) :
    mode.Owns temp path data fs' := by
  cases mode with
  | writing fd n =>
    obtain ⟨hn, i, hfd, htempIs, hbytes⟩ := h
    refine ⟨hn, i, ?_, htempIs.frame htemp hpath, ?_⟩
    · rw [hfds]
      exact hfd
    · rw [hdata]
      exact hbytes
  | synced | closed =>
    obtain ⟨i, htempIs, hbytes⟩ := h
    refine ⟨i, htempIs.frame htemp hpath, ?_⟩
    rw [hdata]
    exact hbytes
  | abandoned =>
    obtain ⟨i, htempIs⟩ := h
    exact ⟨i, htempIs.frame htemp hpath⟩
  | spoiled | idle | unlinked | renamed | durable => exact h

theorem Mode.Owns.named (h : mode.Owns temp path data fs) (howner : mode.owner = true) :
    fs.names temp ≠ none := by
  cases mode with
  | writing =>
    obtain ⟨-, i, -, htempIs, -⟩ := h
    exact htempIs.named.trans_ne nofun
  | synced | closed =>
    obtain ⟨i, htempIs, -⟩ := h
    exact htempIs.named.trans_ne nofun
  | abandoned =>
    obtain ⟨i, htempIs⟩ := h
    exact htempIs.named.trans_ne nofun
  | spoiled => exact h.elim
  | idle | unlinked | renamed | durable => exact absurd howner Bool.false_ne_true

theorem Mode.Owns.of_not_owner (howner : mode.owner = false) : mode.Owns temp path data fs := by
  cases mode with
  | idle | unlinked | renamed | durable => trivial
  | writing | spoiled | synced | closed | abandoned => exact absurd howner.symm Bool.false_ne_true

/-- The call has renamed its file. -/
def Mode.done : Mode → Bool
  | .renamed | .durable => true
  | _ => false

/-- What a system call is to the others: it leaves the two names and all files, or it is about the
temporary file of the call, or it installs the data. -/
inductive Effect (temp path : Path) (data : Bytes) (fs fs' : Fs CString) (mode mode' : Mode) : Prop
  | quiet (htemp : fs'.names temp = fs.names temp) (hpath : fs'.names path = fs.names path)
      (hfds : fs'.fds = fs.fds) (hdata : fs'.data = fs.data) (howner : mode'.owner = mode.owner)
      (hdone : mode'.done = mode.done)
  | work (howner : mode.owner = true ∨ fs.names temp = none)
      (hcontent : fs'.content path = fs.content path) (hdone : mode'.done = false)
  | install (howner : mode.owner = true) (howner' : mode'.owner = false)
      (hcontent : fs'.content path = some data)

theorem Effect.refl (temp path : Path) (data : Bytes) (fs : Fs CString) (mode : Mode) :
    Effect temp path data fs fs mode mode :=
  .quiet rfl rfl rfl rfl rfl rfl

theorem content_congr (hnames : fs'.names path = fs.names path)
    (hdata : ∀ i, fs.names path = some (.file i) → fs'.data i = fs.data i) :
    fs'.content path = fs.content path := by
  rw [Fs.content, Fs.content, hnames]
  cases hnode : fs.names path with
  | none => rfl
  | some node =>
    cases node with
    | dir => rfl
    | file i => exact congrArg some (hdata i hnode)

/-- The bytes of another file are changed. -/
theorem content_setData {i : ℕ} {bytes : Bytes} (hi : fs.names path ≠ some (.file i)) :
    (fs.setData i bytes).content path = fs.content path :=
  content_congr rfl fun j hj => Function.update_of_ne (fun hji : j = i => hi (hji ▸ hj)) ..

variable {op : Call Path} {answer : Answer} {fd n : ℕ}

theorem own_mkdir {p : Path} (hpath : p ≠ path) (htemp : p ≠ temp)
    (hperform : fs.perform (.mkdir p) answer = some fs') :
    Effect temp path data fs fs' .idle .idle := by
  rcases Fs.perform_mkdir hperform with rfl | ⟨name, dir, rfl, hchanged⟩
  · exact .refl ..
  · exact .quiet (hchanged.names_of_not_touches htemp) (hchanged.names_of_not_touches hpath)
      hchanged.fds hchanged.data rfl rfl

theorem own_open (hne : temp ≠ path) (hnone : fs.names temp = none)
    (hperform : fs.perform (.openTrunc temp) answer = some fs') :
    ((tempFile temp path data).next .idle (.openTrunc temp) answer).Owns temp path data fs' ∧
      Effect temp path data fs fs' .idle
        ((tempFile temp path data).next .idle (.openTrunc temp) answer) := by
  rcases Fs.perform_openTrunc hperform with
    ⟨rfl, rfl⟩ | ⟨fd, rfl, ⟨name, dir, fs₁, rfl, hchanged, rfl⟩ | ⟨i, hi, -⟩⟩
  · exact ⟨trivial, .refl ..⟩
  · have hpath : fs₁.names path = fs.names path := hchanged.names_of_not_touches hne
    have hfresh : fs.names path ≠ some (.file fs.next) := fun h => Nat.lt_irrefl _ (fs.names_lt h)
    constructor
    · refine ⟨Nat.zero_le _, fs.next, Function.update_self .., ⟨?_, ?_⟩, ?_⟩
      · rw [Fs.names_setFd, hchanged.names_eq]
        exact Function.update_self ..
      · rw [Fs.names_setFd, hpath]
        exact hfresh
      · exact (congrFun hchanged.data fs.next).trans (Function.update_self ..)
    · refine .work (Or.inr hnone) (content_congr hpath fun i hi => ?_) rfl
      refine (congrFun hchanged.data i).trans ?_
      exact Function.update_of_ne (fun hin : i = fs.next => hfresh (hin ▸ hi)) ..
  · exact absurd (hi.symm.trans hnone) (Option.some_ne_none _)

theorem own_write {bytes : Bytes} (h : (Mode.writing fd n).Owns temp path data fs)
    (hne : bytes ≠ [])
    (hbytes : bytes <+: data.drop n) (hclean : answer = .failed → ¬ fs.CanSucceed (.write fd bytes))
    (hperform : fs.perform (.write fd bytes) answer = some fs') :
    ((tempFile temp path data).next (.writing fd n) (.write fd bytes) answer).Owns temp path
      data fs' ∧ Effect temp path data fs fs' (.writing fd n)
        ((tempFile temp path data).next (.writing fd n) (.write fd bytes) answer) := by
  obtain ⟨hn, i, hfd, htempIs, hdata⟩ := h
  rcases Fs.perform_write hperform with ⟨rfl, rfl⟩ | ⟨k, j, pos, rfl, hpos, hle, hfd', rfl⟩
  · exact absurd ⟨hfd.trans_ne nofun, hne⟩ (hclean rfl)
  · obtain ⟨rfl, rfl⟩ := Prod.mk.inj (Option.some.inj (hfd.symm.trans hfd'))
    obtain ⟨hlength, happend⟩ := writeAt_take hn hbytes hle
    constructor
    · refine ⟨hlength, i, Function.update_self .., ⟨htempIs.named, htempIs.apart⟩, ?_⟩
      refine (Function.update_self ..).trans ?_
      rw [hdata]
      exact happend
    · exact .work (Or.inl rfl) (content_setData htempIs.apart) rfl

theorem own_fsync (h : (Mode.writing fd data.length).Owns temp path data fs)
    (hclean : answer = .failed → ¬ fs.CanSucceed (.fsync fd))
    (hperform : fs.perform (.fsync fd) answer = some fs') :
    ((tempFile temp path data).next (.writing fd data.length) (.fsync fd) answer).Owns
        temp path data fs' ∧
      Effect temp path data fs fs' (.writing fd data.length)
        ((tempFile temp path data).next (.writing fd data.length) (.fsync fd) answer) := by
  obtain ⟨-, i, hfd, htempIs, hdata⟩ := h
  rw [List.take_length] at hdata
  rcases Fs.perform_fsync hperform with ⟨rfl, rfl⟩ | ⟨j, pos, rfl, -, rfl⟩
  · refine absurd ?_ (hclean rfl)
    exact hfd.trans_ne nofun
  · exact ⟨⟨i, ⟨htempIs.named, htempIs.apart⟩, hdata⟩, .quiet rfl rfl rfl rfl rfl rfl⟩

theorem own_rename (h : Mode.closed.Owns temp path data fs)
    (hperform : fs.perform (.rename temp path) answer = some fs') :
    ((tempFile temp path data).next .closed (.rename temp path) answer).Owns temp path data fs' ∧
      Effect temp path data fs fs' .closed
        ((tempFile temp path data).next .closed (.rename temp path) answer) := by
  obtain ⟨i, htempIs, hdata⟩ := h
  rcases Fs.perform_rename hperform with
    ⟨rfl, rfl⟩ | ⟨old, new, dir, j, rfl, rfl, rfl, hj, hchanged⟩
  · exact ⟨⟨i, htempIs⟩, .work (Or.inl rfl) rfl rfl⟩
  · obtain rfl := Node.file.inj (Option.some.inj (htempIs.named.symm.trans hj))
    refine ⟨trivial, .install rfl rfl ?_⟩
    rw [Fs.content_eq_of_file (names_of_move hchanged), hchanged.data, hdata]

theorem own_unlink (hne : temp ≠ path) (hperform : fs.perform (.unlink temp) answer = some fs') :
    Effect temp path data fs fs' .abandoned .unlinked := by
  rcases Fs.perform_unlink hperform with rfl | ⟨name, dir, rfl, hchanged⟩
  · exact .work (Or.inl rfl) rfl rfl
  · refine .work (Or.inl rfl) (content_congr (hchanged.names_of_not_touches hne) fun i _ => ?_) rfl
    rw [hchanged.data]

/-- **Every permitted call**, if it opens the temporary file only when there is none. -/
theorem own_perform (hne : temp ≠ path) (h : mode.Owns temp path data fs)
    (hpermits : (tempFile temp path data).permits mode op)
    (hclean : answer = .failed → ¬ fs.CanSucceed op)
    (hexclusive : op = .openTrunc temp → fs.names temp = none)
    (hperform : fs.perform op answer = some fs') :
    ((tempFile temp path data).next mode op answer).Owns temp path data fs' ∧
      Effect temp path data fs fs' mode ((tempFile temp path data).next mode op answer) := by
  cases mode with
  | idle =>
    cases op with
    | stat p =>
      rw [Fs.perform_stat hperform]
      exact ⟨trivial, .refl ..⟩
    | mkdir p => exact ⟨trivial, own_mkdir hpermits.1 hpermits.2 hperform⟩
    | openTrunc p =>
      obtain rfl := hpermits
      exact own_open hne (hexclusive rfl) hperform
    | _ => exact False.elim hpermits
  | writing fd n =>
    cases op with
    | write fd' bytes =>
      obtain ⟨rfl, hbytes, hprefix⟩ := hpermits
      exact own_write h hbytes hprefix hclean hperform
    | fsync fd' =>
      obtain ⟨rfl, rfl⟩ := hpermits
      exact own_fsync h hclean hperform
    | _ => exact False.elim hpermits
  | spoiled fd => exact h.elim
  | synced fd =>
    cases op with
    | close fd' =>
      obtain ⟨i, htempIs, hdata⟩ := h
      rw [Fs.perform_close hperform]
      exact ⟨⟨i, ⟨htempIs.named, htempIs.apart⟩, hdata⟩, .work (Or.inl rfl) rfl rfl⟩
    | _ => exact False.elim hpermits
  | closed =>
    cases op with
    | rename p q =>
      obtain ⟨rfl, rfl⟩ := hpermits
      exact own_rename h hperform
    | _ => exact False.elim hpermits
  | abandoned =>
    cases op with
    | unlink p =>
      obtain rfl := hpermits
      exact ⟨trivial, own_unlink hne hperform⟩
    | _ => exact False.elim hpermits
  | unlinked => cases op <;> exact False.elim hpermits
  | renamed =>
    cases op with
    | openDir p =>
      rw [Fs.perform_openDir hperform]
      exact ⟨trivial, .refl ..⟩
    | fsyncDir p =>
      rcases Fs.perform_fsyncDir hperform with ⟨rfl, rfl⟩ | ⟨rfl, rfl⟩
      · exact ⟨trivial, .refl ..⟩
      · have hnames : (fs.syncDir p).names = fs.names := Fs.names_syncDir
        exact ⟨trivial, .quiet (congrFun hnames temp) (congrFun hnames path) rfl rfl rfl rfl⟩
    | closeDir p =>
      rw [Fs.perform_closeDir hperform]
      exact ⟨trivial, .refl ..⟩
    | _ => exact False.elim hpermits
  | durable =>
    cases op with
    | closeDir p =>
      rw [Fs.perform_closeDir hperform]
      exact ⟨trivial, .refl ..⟩
    | _ => exact False.elim hpermits

end Owns

/-! ## 3. Every interleaving -/

namespace Writers

variable {T : Type} (calls : WriteCalls T)

/-- Where the calls are. -/
structure Inv (before : Fs CString) (s : Writers T) (mode : T → Mode) : Prop where
  follows : ∀ t, (calls.protocol t).Follows Mode.Reports (mode t) (s.prog t)
  owns : ∀ t, (mode t).Owns calls.temp calls.path (calls.data t) s.fs
  single : ∀ t u, (mode t).owner = true → (mode u).owner = true → t = u
  content : s.fs.content calls.path = before.content calls.path ∨
    ∃ t, s.started t = true ∧ s.fs.content calls.path = some (calls.data t)
  installed : ∀ t, (mode t).done = true → s.installed t = true

section Steps

variable {calls} {before : Fs CString} {s : Writers T} {mode : T → Mode}

theorem inv_start (fs : Fs CString) : (start calls fs).Inv calls fs fun _ => .idle where
  follows t := follows_atomicWriteFile calls.pid (calls.kept t) calls.dir calls.name (calls.data t)
  owns _ := trivial
  single _ _ h := absurd h Bool.false_ne_true
  content := Or.inl rfl
  installed _ h := absurd h Bool.false_ne_true

/-- When a call works on the temporary file, no other call has it. -/
theorem Inv.not_owner (h : s.Inv calls before mode) {t u : T}
    (howner : (mode t).owner = true ∨ s.fs.names calls.temp = none) (hu : u ≠ t) :
    (mode u).owner = false := by
  refine Bool.eq_false_iff.mpr fun hother => ?_
  rcases howner with howner | hnone
  · exact hu (h.single u t hother howner)
  · exact (h.owns u).named hother hnone

variable [DecidableEq T] {t : T} {op : Call Path} {next : Answer → Sys IoRet} {answer : Answer}
  {fs' : Fs CString} {m : Mode}

/-- At most one of the calls has the temporary file after the step, if nobody else had it. -/
theorem single_update (hothers : ∀ u, u ≠ t → (mode u).owner = false) (u v : T)
    (hu : (Function.update mode t m u).owner = true)
    (hv : (Function.update mode t m v).owner = true) :
    u = v := by
  have hall : ∀ w, (Function.update mode t m w).owner = true → w = t := by
    intro w hw
    by_contra hne
    rw [Function.update_of_ne hne] at hw
    exact Bool.false_ne_true ((hothers w hne).symm.trans hw)
  exact (hall u hu).trans (hall v hv).symm

variable {prog : Sys IoRet}

theorem started_after {u : T} (h : s.started u = true) :
    (s.after calls t prog fs').started u = true := by
  change Function.update s.started t true u = true
  rcases eq_or_ne u t with rfl | hu
  · exact Function.update_self ..
  · rw [Function.update_of_ne hu]
    exact h

theorem installed_after {u : T} (h : s.installed u = true) :
    (s.after calls t prog fs').installed u = true := by
  change (s.installed u || _) = true
  rw [h, Bool.true_or]

/-- A call whose data is at the target when it makes a step has been there. -/
theorem installed_self (hprog : s.prog t = .call op next)
    (hcontent : fs'.content calls.path = some (calls.data t)) :
    (s.after calls t prog fs').installed t = true := by
  change (s.installed t || ((Function.update s.started t true t && (s.prog t).result.isNone) &&
    fs'.content calls.path == some (calls.data t))) = true
  rw [Function.update_self, hprog, hcontent, beq_self_eq_true]
  exact Bool.or_true _

/-- What a step does to the content of the target and to who was there. -/
theorem Inv.after_done (h : s.Inv calls before mode)
    (hm : m.done = true → (s.after calls t prog fs').installed t = true) (u : T)
    (hu : (Function.update mode t m u).done = true) :
    (s.after calls t prog fs').installed u = true := by
  rcases eq_or_ne u t with rfl | hne
  · rw [Function.update_self] at hu
    exact hm hu
  · rw [Function.update_of_ne hne] at hu
    exact installed_after (h.installed u hu)

theorem Inv.after_content (h : s.Inv calls before mode)
    (hsame : fs'.content calls.path = s.fs.content calls.path) :
    (s.after calls t prog fs').fs.content calls.path = before.content calls.path ∨
      ∃ u, (s.after calls t prog fs').started u = true ∧
        (s.after calls t prog fs').fs.content calls.path = some (calls.data u) := by
  rcases h.content with hold | ⟨u, hu, hnew⟩
  · exact Or.inl (hsame.trans hold)
  · exact Or.inr ⟨u, started_after hu, hsame.trans hnew⟩

/-- **A system call** of one of the calls. -/
theorem Inv.step (h : s.Inv calls before mode) (hprog : s.prog t = .call op next)
    (hclean : answer = .failed → ¬ s.fs.CanSucceed op)
    (hexclusive : op = .openTrunc calls.temp → s.fs.names calls.temp = none)
    (hperform : s.fs.perform op answer = some fs') :
    (s.after calls t (next answer) fs').Inv calls before
      (Function.update mode t ((calls.protocol t).next (mode t) op answer)) := by
  have hfollows := h.follows t
  rw [hprog] at hfollows
  obtain ⟨howns, heffect⟩ := own_perform calls.temp_ne_path (h.owns t) hfollows.1 hclean hexclusive
    hperform
  have hrest := hfollows.2 answer (answers_perform hperform)
  have hfollows' : ∀ u, (calls.protocol u).Follows Mode.Reports
      (Function.update mode t ((calls.protocol t).next (mode t) op answer) u)
      (Function.update s.prog t (next answer) u) := by
    intro u
    rcases eq_or_ne u t with rfl | hu
    · rw [Function.update_self, Function.update_self]
      exact hrest
    · rw [Function.update_of_ne hu, Function.update_of_ne hu]
      exact h.follows u
  cases heffect with
  | quiet htemp hpath hfds hdata howner hdone =>
    refine ⟨hfollows', ?_, ?_, h.after_content (content_congr hpath fun i _ => congrFun hdata i),
      h.after_done fun hm => installed_after (h.installed t (hdone.symm.trans hm))⟩
    · exact (Function.forall_update_iff mode _).mpr
        ⟨howns, fun u _ => (h.owns u).frame htemp hpath hfds hdata⟩
    · intro u v hu hv
      have hsame : ∀ w,
        (Function.update mode t ((calls.protocol t).next (mode t) op answer) w).owner =
          (mode w).owner :=
        (Function.forall_update_iff mode fun w m => m.owner = (mode w).owner).mpr
          ⟨howner, fun _ _ => rfl⟩
      exact h.single u v ((hsame u).symm.trans hu) ((hsame v).symm.trans hv)
  | work howner hcontent hdone =>
    have hothers : ∀ u, u ≠ t → (mode u).owner = false := fun _ hu => h.not_owner howner hu
    exact ⟨hfollows',
      (Function.forall_update_iff mode _).mpr ⟨howns, fun u hu => .of_not_owner (hothers u hu)⟩,
      single_update hothers, h.after_content hcontent,
      h.after_done fun hm => absurd (hdone.symm.trans hm) Bool.false_ne_true⟩
  | install howner howner' hcontent =>
    have hothers : ∀ u, u ≠ t → (mode u).owner = false := fun _ hu => h.not_owner (Or.inl howner) hu
    refine ⟨hfollows',
      (Function.forall_update_iff mode _).mpr ⟨howns, fun u hu => .of_not_owner (hothers u hu)⟩,
      single_update hothers, Or.inr ⟨t, ?_, hcontent⟩,
      h.after_done fun _ => installed_self hprog hcontent⟩
    exact Function.update_self ..

end Steps

end Writers

/-- **Calls that exclude each other.**  In every interleaving in which a call opens the temporary
file only when there is none: at every moment the target has all of the data of one of the calls
that have begun, or what it had before; and the data of each call that returned OK was there during
the call. -/
theorem atomicWriters_exclusive {T : Type} [DecidableEq T] (calls : WriteCalls T) (fs : Fs CString)
    {s : Writers T} (h : (Writers.machine calls).Reachable Writers.Exclusive (.start calls fs) s) :
    (s.fs.content calls.path = fs.content calls.path ∨
      ∃ t, s.started t = true ∧ s.fs.content calls.path = some (calls.data t)) ∧
    ∀ t, s.prog t = .pure .ok → s.installed t = true := by
  have hinv : ∃ mode, s.Inv calls fs mode := by
    apply h.invariant
    · exact ⟨_, Writers.inv_start fs⟩
    rintro s ⟨t, answer⟩ s' ⟨mode, hinv⟩ henabled hexclusive hstep
    have hstep' : s.step calls (t, answer) = some s' := hstep
    rw [Writers.step] at hstep'
    cases hprog : s.prog t with
    | pure ret =>
      rw [hprog] at hstep'
      exact absurd hstep'.symm (Option.some_ne_none s')
    | call op next =>
      rw [hprog] at hstep'
      obtain ⟨fs', hperform, rfl⟩ := Option.map_eq_some_iff.mp hstep'
      have hclean : answer = .failed → ¬ s.fs.CanSucceed op := by
        have henabled' : s.Enabled (t, answer) := henabled
        rw [Writers.Enabled, hprog] at henabled'
        exact henabled'
      refine ⟨_, hinv.step hprog hclean ?_ hperform⟩
      rintro rfl
      rw [Writers.Exclusive, hprog] at hexclusive
      exact hexclusive
  obtain ⟨mode, hinv⟩ := hinv
  refine ⟨hinv.content, fun t hok => hinv.installed t ?_⟩
  have hfollows := hinv.follows t
  rw [hok] at hfollows
  rw [show mode t = .durable from hfollows rfl]
  rfl

/-- Two calls for one file. -/
def twoCalls : WriteCalls Bool := ⟨7, [], cstr "a", fun t => if t then [1, 2] else [3], fun _ => 0⟩

/-- One call after the other. -/
theorem atomicWriters_exclusive_two_calls :
    ∃ s, (Writers.machine twoCalls).Reachable Writers.Exclusive (.start twoCalls emptyFs) s ∧
      s.fs.content twoCalls.path = some [3] ∧ s.prog true = .pure .ok ∧
        s.installed true = true := by
  have hrun : ((Writers.machine twoCalls).run Writers.Exclusive (.start twoCalls emptyFs)
      ([.kind true, .fd 3, .count 2, .done, .done, .done, .done, .done, .done].map (true, ·) ++
        [.kind true, .fd 3, .count 1, .done, .done, .done].map (false, ·))).any
        fun s => s.fs.content twoCalls.path = some [3] ∧ (s.prog true).result = some .ok := by
    decide +kernel
  obtain ⟨s, hs, hend⟩ := Machine.exists_of_run hrun
  obtain ⟨hcontent, hresult⟩ := of_decide_eq_true hend
  have hok := Prog.eq_pure_of_result hresult
  exact ⟨s, hs, hcontent, hok, (atomicWriters_exclusive twoCalls emptyFs hs).2 true hok⟩

/-- **A file that nobody wrote.**  The second call opens the temporary file between the first call's
`fclose` and `rename`: the first call installs an empty file and returns OK, and its data was never
there. -/
theorem atomicWriters_truncated :
    ∃ s, (Writers.machine twoCalls).Reachable Machine.any (.start twoCalls emptyFs) s ∧
      s.fs.content twoCalls.path = some [] ∧ s.prog true = .pure .ok ∧
        s.installed true = false := by
  have hrun : ((Writers.machine twoCalls).run Machine.any (.start twoCalls emptyFs)
      ([.kind true, .fd 3, .count 2, .done, .done].map (true, ·) ++
        [.kind true, .fd 4].map (false, ·) ++ [.done, .done, .done, .done].map (true, ·))).any
        fun s => s.fs.content twoCalls.path = some [] ∧ (s.prog true).result = some .ok ∧
          s.installed true = false := by
    decide +kernel
  obtain ⟨s, hs, hend⟩ := Machine.exists_of_run hrun
  obtain ⟨hcontent, hresult, hinstalled⟩ := of_decide_eq_true hend
  exact ⟨s, hs, hcontent, Prog.eq_pure_of_result hresult, hinstalled⟩

end Buckets
