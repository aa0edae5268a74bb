import IodriversBase.Clients
import IodriversBase.Opening

namespace IodriversBase

open Programs

variable {Ω : Type} {F : Set ℤ} {fds : List (ℤ × Bool)} {fd fd' : ℤ} {log log' : List FdEvent}

/-- The log is in order, and leaves the descriptors `F` open. -/
structure Holds (F : Set ℤ) (log : List FdEvent) : Prop where
  disciplined : Disciplined log
  isOpen : ∀ fd, isOpen fd log = true ↔ fd ∈ F

theorem Holds.isOpen_eq_false (h : Holds F log) : IodriversBase.isOpen fd log = false ↔ fd ∉ F := by
  rw [← h.isOpen, Bool.not_eq_true]

theorem Holds.congr {G : Set ℤ} (h : Holds F log) (hFG : ∀ fd, fd ∈ F ↔ fd ∈ G) : Holds G log :=
  ⟨h.disciplined, fun fd => (h.isOpen fd).trans (hFG fd)⟩

theorem Holds.opened (h : Holds F log) (hfd : fd ∉ F) :
    Holds (insert fd F) (log ++ [.opened fd]) where
  disciplined := disciplined_append.mpr ⟨h.disciplined, h.isOpen_eq_false.mpr hfd⟩
  isOpen fd' := by
    rw [isOpen_append, FdEvent.leaves, Bool.or_eq_true, h.isOpen, beq_iff_eq, Set.mem_insert_iff,
      or_comm, eq_comm]

theorem Holds.closed (h : Holds F log) (hfd : fd ∈ F) :
    Holds (F \ {fd}) (log ++ [.closed fd]) where
  disciplined := disciplined_append.mpr ⟨h.disciplined, (h.isOpen fd).mpr hfd⟩
  isOpen fd' := by
    rw [isOpen_append, FdEvent.leaves, Bool.and_eq_true, h.isOpen, bne_iff_ne, Set.mem_sdiff,
      Set.mem_singleton_iff, ne_comm]

theorem Holds.used (h : Holds F log) (hfd : fd ∈ F) : Holds F (log ++ [.used fd]) where
  disciplined := disciplined_append.mpr ⟨h.disciplined, (h.isOpen fd).mpr hfd⟩
  isOpen fd' := by rw [isOpen_append, FdEvent.leaves, h.isOpen]

def LogUses (fd : ℤ) (log log' : List FdEvent) : Prop :=
  ∃ n, log' = log ++ List.replicate n (.used fd)

theorem LogUses.refl (fd : ℤ) (log : List FdEvent) : LogUses fd log log := ⟨0, by simp⟩

theorem LogUses.once (fd : ℤ) (log : List FdEvent) : LogUses fd log (log ++ [.used fd]) := ⟨1, rfl⟩

theorem LogUses.trans {log'' : List FdEvent} (h : LogUses fd log log')
    (h' : LogUses fd log' log'') : LogUses fd log log'' := by
  obtain ⟨n, rfl⟩ := h
  obtain ⟨m, rfl⟩ := h'
  exact ⟨n + m, by rw [List.append_assoc, List.replicate_append_replicate]⟩

theorem Holds.uses (h : Holds F log) (hfd : fd ∈ F) (huses : LogUses fd log log') :
    Holds F log' := by
  obtain ⟨n, rfl⟩ := huses
  exact ⟨h.disciplined.uses ((h.isOpen fd).mpr hfd) n, fun fd' => by rw [isOpen_uses, h.isOpen]⟩

/-- The open descriptors are those that an object has and will close, marked in `fds`, and those in
`F`, which it may have but will not close. -/
structure Owns (F : Set ℤ) (fds : List (ℤ × Bool)) (log : List FdEvent) : Prop where
  holds : Holds ({fd | (fd, true) ∈ fds} ∪ F) log
  nodup : (fds.map Prod.fst).Nodup
  closes : ∀ fd, (fd, true) ∈ fds → fd ∉ F
  borrows : ∀ fd, (fd, false) ∈ fds → fd ∈ F

def closing (fds : List (ℤ × Bool)) : List FdEvent :=
  (fds.filter Prod.snd).map fun fd => .closed fd.1

theorem owns_nil : Owns F [] log ↔ Holds F log := by
  have hunion : ({fd | (fd, true) ∈ ([] : List (ℤ × Bool))} ∪ F : Set ℤ) = F := by simp
  constructor
  · intro h
    exact hunion ▸ h.holds
  · intro h
    exact ⟨hunion.symm ▸ h, List.nodup_nil, by simp, by simp⟩

theorem Owns.mem (h : Owns F fds log) {autoClose : Bool} (hfd : (fd, autoClose) ∈ fds) :
    fd ∈ ({fd | (fd, true) ∈ fds} ∪ F : Set ℤ) := by
  cases autoClose with
  | true => exact .inl hfd
  | false => exact .inr (h.borrows fd hfd)

theorem Owns.uses (h : Owns F fds log) {autoClose : Bool} (hfd : (fd, autoClose) ∈ fds)
    (huses : LogUses fd log log') : Owns F fds log' :=
  { h with holds := h.holds.uses (h.mem hfd) huses }

theorem Owns.opened (h : Owns F fds log) (hfresh : isOpen fd log = false) :
    Owns F (fds ++ [(fd, true)]) (log ++ [.opened fd]) := by
  have hnot := h.holds.isOpen_eq_false.mp hfresh
  have hnew : ∀ b, (fd, b) ∉ fds := fun b hb => hnot (h.mem hb)
  refine ⟨(h.holds.opened hnot).congr fun fd' => ?_, ?_, fun fd' hfd' => ?_, fun fd' hfd' => ?_⟩
  · simp only [Set.mem_insert_iff, Set.mem_union, Set.mem_ofPred_eq, List.mem_append,
      List.mem_singleton, Prod.mk.injEq, and_true]
    tauto
  · rw [List.map_append, List.nodup_append]
    refine ⟨h.nodup, List.nodup_singleton _, fun a ha b hb => ?_⟩
    obtain ⟨⟨a, b'⟩, hab, rfl⟩ := List.mem_map.mp ha
    obtain rfl : b = fd := by simpa using hb
    rintro rfl
    exact hnew b' hab
  · rcases List.mem_append.mp hfd' with hold | hlast
    · exact h.closes fd' hold
    · obtain rfl : fd' = fd := by simpa using hlast
      exact fun hF => hnot (.inr hF)
  · rcases List.mem_append.mp hfd' with hold | hlast
    · exact h.borrows fd' hold
    · simp at hlast

theorem Owns.deleted (h : Owns F fds log) : Holds F (log ++ closing fds) := by
  induction fds generalizing log with
  | nil => simpa [closing] using owns_nil.mp h
  | cons fd fds ih =>
    obtain ⟨fd, autoClose⟩ := fd
    obtain ⟨hhead, hnodup⟩ := List.nodup_cons.mp h.nodup
    have hother : ∀ b, (fd, b) ∉ fds := fun b hb => hhead (List.mem_map.mpr ⟨_, hb, rfl⟩)
    have hcloses : ∀ fd', (fd', true) ∈ fds → fd' ∉ F :=
      fun fd' hfd' => h.closes fd' (List.mem_cons_of_mem _ hfd')
    have hborrows : ∀ fd', (fd', false) ∈ fds → fd' ∈ F :=
      fun fd' hfd' => h.borrows fd' (List.mem_cons_of_mem _ hfd')
    cases autoClose with
    | false =>
      refine ih ⟨h.holds.congr fun fd' => ?_, hnodup, hcloses, hborrows⟩
      simp
    | true =>
      have hmem : fd ∈ ({fd' | (fd', true) ∈ (fd, true) :: fds} ∪ F : Set ℤ) :=
        .inl (List.mem_cons_self ..)
      have hnot := h.closes fd (List.mem_cons_self ..)
      have hrest := @ih (log ++ [.closed fd])
        ⟨(h.holds.closed hmem).congr fun fd' => ?_, hnodup, hcloses, hborrows⟩
      · simpa [closing] using hrest
      · have := hother true
        simp only [Set.mem_sdiff, Set.mem_union, Set.mem_ofPred_eq, List.mem_cons, Prod.mk.injEq,
          and_true, Set.mem_singleton_iff]
        constructor
        · rintro ⟨(rfl | hin) | hin, hne⟩
          · exact absurd rfl hne
          · exact .inl hin
          · exact .inr hin
        · rintro (hin | hin)
          · refine ⟨.inl (.inr hin), ?_⟩
            rintro rfl
            exact this hin
          · refine ⟨.inr hin, ?_⟩
            rintro rfl
            exact hnot hin

def keptFrom (F : Set ℤ) (fd : ℤ) (autoClose : Bool) : Set ℤ := if autoClose then F \ {fd} else F

theorem Holds.give (h : Holds F log) (hfd : fd ∈ F) (autoClose : Bool) :
    Owns (keptFrom F fd autoClose) [(fd, autoClose)] log := by
  cases autoClose with
  | false =>
    refine ⟨h.congr fun fd' => by simp [keptFrom], List.nodup_singleton _, by simp, ?_⟩
    intro fd' hfd'
    obtain rfl : fd' = fd := by simpa using hfd'
    exact hfd
  | true =>
    refine ⟨h.congr fun fd' => ?_, List.nodup_singleton _, fun fd' hfd' hF => ?_, by simp⟩
    · simp only [keptFrom, if_true, Set.mem_union, Set.mem_ofPred_eq, List.mem_singleton,
        Prod.mk.injEq, and_true, Set.mem_sdiff, Set.mem_singleton_iff]
      by_cases heq : fd' = fd
      · simp [heq, hfd]
      · simp [heq]
    · obtain rfl : fd' = fd := by simpa using hfd'
      exact hF.2 rfl

theorem Owns.beside {G : Set ℤ} (h : Owns F fds log) (hsub : F ⊆ G)
    (hdisjoint : ∀ fd, (fd, true) ∈ fds → fd ∉ G)
    (hholds : Holds ({fd | (fd, true) ∈ fds} ∪ G) log') : Owns G fds log' where
  holds := hholds
  nodup := h.nodup
  closes := hdisjoint
  borrows fd hfd := hsub (h.borrows fd hfd)

def uses {α : Type} (fd : ℤ) (call : Ω → α × Ω) (w : Ω × List FdEvent) : α × Ω × List FdEvent :=
  ((call w.1).1, (call w.1).2, w.2 ++ [.used fd])

/-- A call that hands out a descriptor, which is one that is not open. -/
def handsOut (call : Ω → Option ℤ × Ω) (w : Ω × List FdEvent) : Option ℤ × Ω × List FdEvent :=
  match call w.1 with
  | (some fd, o) =>
    if isOpen fd w.2 = false then (some fd, o, w.2 ++ [.opened fd]) else (none, o, w.2)
  | (none, o) => (none, o, w.2)

theorem of_handsOut {call : Ω → Option ℤ × Ω} {w : Ω × List FdEvent}
    (h : (handsOut call w).1 = some fd) : (call w.1).1 = some fd := by
  unfold handsOut at h
  split at h
  · next fd' o hcall =>
    rw [hcall]
    split at h
    · exact h
    · cases h
  · cases h

/-- The system, with a log of the descriptors that are opened, closed and used. -/
def OpenOs.audited (os : OpenOs Ω) : OpenOs (Ω × List FdEvent) where
  __ := os.toOs.audited
  accept fd w :=
    match os.accept fd w.1 with
    | (.ok client, o) =>
      if isOpen client w.2 = false then (.ok client, o, w.2 ++ [.used fd] ++ [.opened client])
      else (.error EAGAIN, o, w.2 ++ [.used fd])
    | (.error errno, o) => (.error errno, o, w.2 ++ [.used fd])
  recvfrom fd n peek := uses fd (os.recvfrom fd n peek)
  sendto fd data siOther sLen := uses fd (os.sendto fd data siOther sLen)
  errno w := os.errno w.1
  openDevice path := handsOut (os.openDevice path)
  tiocgserial fd := uses fd (os.tiocgserial fd)
  tiocsserial fd ss w := (os.tiocsserial fd ss w.1, w.2 ++ [.used fd])
  tcgetattr fd := uses fd (os.tcgetattr fd)
  tcsetattr fd t := uses fd (os.tcsetattr fd t)
  cfsetispeed := os.cfsetispeed
  cfsetospeed := os.cfsetospeed
  getaddrinfo node service hints w :=
    ((os.getaddrinfo node service hints w.1).1, (os.getaddrinfo node service hints w.1).2, w.2)
  socket family socktype protocol := handsOut (os.socket family socktype protocol)
  bind fd addr := uses fd (os.bind fd addr)
  connect fd addr := uses fd (os.connect fd addr)
  listen fd backlog := uses fd (os.listen fd backlog)
  setNodelay fd := uses fd (os.setNodelay fd)
  unlink path w := (os.unlink path w.1, w.2)
  openPath path := handsOut (os.openPath path)

def Has (F : Set ℤ) (w : Ω × List FdEvent) : Prop := Holds F w.2

def Failed (whats : List Text) (F : Set ℤ) (x : UnixError) (w : Ω × List FdEvent) : Prop :=
  x.what ∈ whats ∧ Has F w

def Makes {α : Type} (whats : List Text) (f : Act (Ω × List FdEvent) UnixError α) (fd : α → ℤ) :
    Prop :=
  ∀ F, Ensures (Has F) f (fun a w => fd a ∉ F ∧ Has (insert (fd a) F) w) (Failed whats F)

def Works {α : Type} (whats : List Text) (fd : ℤ) (f : Act (Ω × List FdEvent) UnixError α) :
    Prop :=
  ∀ F, fd ∈ F → Ensures (Has F) f (fun _ => Has F) (Failed whats F)

variable {α β : Type} {what : Text} {whats whats' : List Text} {errno : Ω × List FdEvent → ℕ}

theorem meets_demand {σ : Type} {P : σ → Prop} {Q : α → σ → Prop} {R : UnixError → σ → Prop}
    {errno : σ → ℕ} {call : σ → Option α × σ}
    (hsome : ∀ w a w', P w → call w = (some a, w') → Q a w')
    (hnone : ∀ w w', P w → call w = (none, w') → R ⟨what, errno w'⟩ w') :
    Ensures P (demand errno call what) Q R := by
  intro w hw
  rw [demand, ExceptT.run_mk]
  rcases hcall : call w with ⟨_ | a, w'⟩
  · exact hnone w w' hw hcall
  · exact hsome w a w' hw hcall

theorem meets_check {σ : Type} {P : σ → Prop} {Q : σ → Prop} {R : UnixError → σ → Prop}
    {errno : σ → ℕ} {call : σ → Bool × σ} (hcall : ∀ w, P w → Q (call w).2)
    (hfail : ∀ w, Q w → R ⟨what, errno w⟩ w) :
    Ensures P (check errno call what) (fun _ => Q) R := by
  intro w hw
  have hw' := hcall w hw
  rw [check, ExceptT.run_mk]
  rcases hr : call w with ⟨_ | _, w'⟩
  · rw [hr] at hw'
    exact hfail w' hw'
  · rw [hr] at hw'
    exact hw'

theorem meets_firstSome {σ γ : Type} {P : σ → Prop} {Q : α → σ → Prop} {R : UnixError → σ → Prop}
    {errno : σ → ℕ} {attempt : γ → σ → Option α × σ}
    (hsome : ∀ c w a w', P w → attempt c w = (some a, w') → Q a w')
    (hnone : ∀ c w w', P w → attempt c w = (none, w') → P w')
    (hfail : ∀ w, P w → R ⟨what, errno w⟩ w) (candidates : List γ) :
    Ensures P (demand errno (firstSome attempt candidates) what) Q R := by
  apply meets_demand
  · intro w a w' hw hcall
    obtain ⟨b, t, hr, hb⟩ | ⟨t, hr, -⟩ := firstSome_rule hsome hnone candidates hw
    · rw [hr] at hcall
      cases hcall
      exact hb
    · rw [hr] at hcall
      cases hcall
  · intro w w' hw hcall
    obtain ⟨b, t, hr, -⟩ | ⟨t, hr, ht⟩ := firstSome_rule hsome hnone candidates hw
    · rw [hr] at hcall
      cases hcall
    · rw [hr] at hcall
      cases hcall
      exact hfail _ ht

theorem Failed.mono {x : UnixError} {w : Ω × List FdEvent} (h : Failed whats F x w)
    (hsub : whats ⊆ whats') : Failed whats' F x w := ⟨hsub h.1, h.2⟩

theorem has_of_fst_eq {w w' : Ω × List FdEvent} (h : w'.2 = w.2) (hw : Has F w) : Has F w' := by
  rw [Has, h]
  exact hw

theorem works_act (whats : List Text) (fd : ℤ) (call : Ω → α × Ω) :
    Works whats fd (act (uses fd call)) :=
  fun _ hfd => Ensures.act fun _ hw => hw.used hfd

theorem works_check (fd : ℤ) (call : Ω → Bool × Ω) (hwhat : what ∈ whats) :
    Works whats fd (check errno (uses fd call) what) :=
  fun _ hfd => meets_check (fun _ hw => hw.used hfd) fun _ hw => ⟨hwhat, hw⟩

theorem works_demand (fd : ℤ) (call : Ω → Option α × Ω) (hwhat : what ∈ whats) :
    Works whats fd (demand errno (uses fd call) what) := by
  intro F hfd
  apply meets_demand
  · intro w a w' hw hcall
    have hused : w' = (uses fd call w).2 := by rw [hcall]
    exact hused ▸ hw.used hfd
  · intro w w' hw hcall
    have hused : w' = (uses fd call w).2 := by rw [hcall]
    exact ⟨hwhat, hused ▸ hw.used hfd⟩

theorem works_pure (fd : ℤ) (a : α) :
    Works whats fd (pure a : Act (Ω × List FdEvent) UnixError α) :=
  fun _ _ => Ensures.pure fun _ hw => hw

theorem Works.bind {f : Act (Ω × List FdEvent) UnixError α}
    {g : α → Act (Ω × List FdEvent) UnixError β} (hf : Works whats fd f)
    (hg : ∀ a, Works whats fd (g a)) : Works whats fd (f >>= g) :=
  fun F hfd => (hf F hfd).bind fun a => hg a F hfd

theorem Works.mono {f : Act (Ω × List FdEvent) UnixError α} (hf : Works whats fd f)
    (hsub : whats ⊆ whats') : Works whats' fd f :=
  fun F hfd => (hf F hfd).mono (fun _ h => h) (fun _ _ h => h) fun _ _ h => h.mono hsub

theorem handsOut_cases (call : Ω → Option ℤ × Ω) (w : Ω × List FdEvent) :
    (∃ o, handsOut call w = (none, o, w.2)) ∨
      ∃ fd o, handsOut call w = (some fd, o, w.2 ++ [.opened fd]) ∧ isOpen fd w.2 = false := by
  rw [handsOut]
  rcases call w.1 with ⟨_ | fd, o⟩
  · exact .inl ⟨o, rfl⟩
  · dsimp only
    split_ifs with hfresh
    · exact .inr ⟨fd, o, rfl, hfresh⟩
    · exact .inl ⟨o, rfl⟩

theorem makes_demand (errno : Ω × List FdEvent → ℕ) (call : Ω → Option ℤ × Ω)
    (hwhat : what ∈ whats) :
    Makes whats (demand errno (handsOut call) what) id := by
  intro F
  apply meets_demand
  · intro w fd w' hw hcall
    obtain ⟨o, hnone⟩ | ⟨fd', o, hsome, hfresh⟩ := handsOut_cases call w
    · rw [hnone] at hcall
      cases hcall
    · rw [hsome] at hcall
      cases hcall
      have hnot := hw.isOpen_eq_false.mp hfresh
      exact ⟨hnot, hw.opened hnot⟩
  · intro w w' hw hcall
    obtain ⟨o, hnone⟩ | ⟨fd', o, hsome, hfresh⟩ := handsOut_cases call w
    · rw [hnone] at hcall
      cases hcall
      exact ⟨hwhat, hw⟩
    · rw [hsome] at hcall
      cases hcall

variable {os : OpenOs Ω} {hostname port : Text} {hints : Hints}

def nonBlockingWhat : Text := "cannot set the O_NONBLOCK flag".toList

theorem setNonBlockingFlag_works (os : OpenOs Ω) (fd : ℤ) :
    Works [nonBlockingWhat] fd (throwing (setNonBlockingFlag os.audited.toOs fd)) := by
  intro F hfd w hw
  have hafter : Has F (setNonBlockingFlag os.audited.toOs fd w).2 :=
    setNonBlockingFlag_keeps (fun _ hw => hw.used hfd) (fun _ _ hw => hw.used hfd) hw
  rw [throwing, ExceptT.run_mk]
  rcases hr : (setNonBlockingFlag os.audited.toOs fd w).1 with x | b
  · obtain ⟨errno, rfl⟩ := setNonBlockingFlag_error hr
    exact ⟨List.mem_singleton_self _, hafter⟩
  · exact hafter

theorem Holds.restored (h : Holds (insert fd F) log) (hfd : fd ∉ F) :
    Holds F (log ++ [.closed fd]) := by
  refine (h.closed (Set.mem_insert fd F)).congr fun fd' => ?_
  simp only [Set.mem_sdiff, Set.mem_insert_iff, Set.mem_singleton_iff]
  constructor
  · rintro ⟨rfl | hmem, hne⟩
    · exact absurd rfl hne
    · exact hmem
  · intro hmem
    refine ⟨.inr hmem, ?_⟩
    rintro rfl
    exact hfd hmem

theorem attachSocket_holds (attach : ℤ → Bytes → Ω → Bool × Ω) (rp : Addrinfo)
    {w w' : Ω × List FdEvent} {r : Option (ℤ × Bytes)} (hw : Has F w)
    (h : attachSocket os.audited (fun fd addr => uses fd (attach fd addr)) rp w = (r, w')) :
    match r with
    | some a => a.1 ∉ F ∧ Has (insert a.1 F) w'
    | none => Has F w' := by
  obtain ⟨o, hnone⟩ | ⟨fd, o, hsome, hfresh⟩ :=
    handsOut_cases (os.socket rp.family rp.socktype rp.protocol) w
  · have hsocket : os.audited.socket rp.family rp.socktype rp.protocol w = (none, o, w.2) := hnone
    rw [attachSocket, hsocket] at h
    cases h
    exact hw
  · have hsocket : os.audited.socket rp.family rp.socktype rp.protocol w =
        (some fd, o, w.2 ++ [.opened fd]) := hsome
    have hnot := hw.isOpen_eq_false.mp hfresh
    have hused := (hw.opened hnot).used (Set.mem_insert fd F)
    rw [attachSocket, hsocket] at h
    dsimp only [uses] at h
    rcases hb : attach fd rp.addr o with ⟨_ | _, o'⟩
    · rw [hb] at h
      cases h
      exact hused.restored hnot
    · rw [hb] at h
      cases h
      exact ⟨hnot, hused⟩

theorem makes_firstSome (attach : ℤ → Bytes → Ω → Bool × Ω) (candidates : List Addrinfo)
    (hwhat : what ∈ whats) :
    Makes whats (demand errno (firstSome
      (attachSocket os.audited fun fd addr => uses fd (attach fd addr)) candidates) what)
      Prod.fst := by
  intro F
  apply meets_firstSome
  · intro rp w a w' hw h
    exact attachSocket_holds attach rp hw h
  · intro rp w w' hw h
    exact attachSocket_holds attach rp hw h
  · intro w hw
    exact ⟨hwhat, hw⟩

theorem meets_getaddrinfo (node : Option Text) (hwhat : what ∈ whats) :
    Ensures (Has F) (demand errno (os.audited.getaddrinfo node port hints) what) (fun _ => Has F)
      (Failed whats F) := by
  apply meets_demand
  · intro w a w' hw hcall
    have hlog : w' = (os.audited.getaddrinfo node port hints w).2 := by rw [hcall]
    exact has_of_fst_eq (by rw [hlog]; rfl) hw
  · intro w w' hw hcall
    have hlog : w' = (os.audited.getaddrinfo node port hints w).2 := by rw [hcall]
    exact ⟨hwhat, has_of_fst_eq (by rw [hlog]; rfl) hw⟩

def serverWhats (port : Text) : List Text :=
  ["cannot resolve server port ".toList ++ port,
    "cannot open server socket on port ".toList ++ port]

def clientWhats (port : Text) : List Text :=
  ["cannot resolve client port ".toList ++ port,
    "cannot open client socket on port ".toList ++ port,
    "cannot connect client socket on port ".toList ++ port]

theorem createIPServerSocket_makes (os : OpenOs Ω) (port : Text) (hints : Hints) :
    Makes (serverWhats port) (createIPServerSocket os.audited port hints) id := by
  intro F
  refine (meets_getaddrinfo none (List.mem_cons_self ..)).bind fun candidates => ?_
  refine (makes_firstSome os.bind candidates ?_ F).bind fun r => Ensures.pure fun w hw => hw
  exact List.mem_cons_of_mem _ (List.mem_singleton_self _)

theorem createIPClientSocket_makes (os : OpenOs Ω) (hostname port : Text) (hints : Hints) :
    Makes (clientWhats port) (createIPClientSocket os.audited hostname port hints) Prod.fst := by
  intro F
  refine (meets_getaddrinfo _ (List.mem_cons_self ..)).bind fun candidates => ?_
  refine makes_firstSome os.connect candidates ?_ F
  simp

theorem connectIPSocket_works (fd : ℤ) :
    Works (clientWhats port) fd (connectIPSocket os.audited fd hostname port hints) := by
  intro F hfd
  refine (meets_getaddrinfo _ (List.mem_cons_self ..)).bind fun candidates => ?_
  have hconnect (rp : Addrinfo) {w w' : Ω × List FdEvent} {r : Option Bytes} (hw : Has F w)
      (h : connectTo os.audited fd rp w = (r, w')) : Has F w' := by
    have hw' : Has F (uses fd (os.connect fd rp.addr) w).2 := hw.used hfd
    rw [connectTo] at h
    dsimp only [OpenOs.audited, uses] at h hw'
    rcases hb : os.connect fd rp.addr w.1 with ⟨_ | _, o⟩
    · rw [hb] at h hw'
      cases h
      exact hw'
    · rw [hb] at h hw'
      cases h
      exact hw'
  apply meets_firstSome
  · intro rp w a w' hw h
    exact hconnect rp hw h
  · intro rp w w' hw h
    exact hconnect rp hw h
  · intro w hw
    exact ⟨by simp, hw⟩

theorem unixSocket_makes (os : OpenOs Ω) (socktype : ℤ)
    {f : ℤ → Act (Ω × List FdEvent) UnixError Unit} (hf : ∀ fd, Works whats fd (f fd)) :
    Makes ("failed to create Unix socket".toList :: whats) (unixSocket os.audited socktype f)
      id := by
  intro F
  refine (makes_demand _ (os.socket AF_UNIX socktype 0) (List.mem_cons_self ..) F).bind fun fd => ?_
  have hwork : Ensures (fun w => fd ∉ F ∧ Has (insert fd F) w) (f fd)
      (fun _ w => fd ∉ F ∧ Has (insert fd F) w)
      (fun x w => x.what ∈ whats ∧ fd ∉ F ∧ Has (insert fd F) w) := by
    intro w hw
    exact (hf fd _ (Set.mem_insert fd F) w hw.2).mono (fun _ _ h => ⟨hw.1, h⟩)
      fun _ _ h => ⟨h.1, hw.1, h.2⟩
  refine (hwork.guarded fun x w hx => ?_).bind fun _ => Ensures.pure fun w hw => hw
  exact ⟨List.mem_cons_of_mem _ hx.1, hx.2.2.restored hx.2.1⟩

theorem udpPeer_works (os : OpenOs Ω) (sfd : ℤ) (call : UDPBidirectional) :
    Works (clientWhats (lexicalCast call.remotePort)) sfd (udpPeer os.audited sfd call) := by
  rw [udpPeer]
  split_ifs
  · exact connectIPSocket_works sfd
  · intro F hfd
    refine (createIPClientSocket_makes os _ _ _ F).bind fun r => ?_
    refine Ensures.bind (Q := fun _ => Has F) ?_ fun _ => Ensures.pure fun w hw => hw
    exact Ensures.act fun w hw => hw.2.restored hw.1

theorem setSerialConfiguration_works (os : OpenOs Ω) (fd : ℤ) (c : SerialConfiguration) :
    Works configurationWhats fd (setSerialConfiguration os.audited.toSerialOs fd c) := by
  refine (works_demand fd (os.tcgetattr fd) (List.mem_cons_self ..)).bind fun tio => ?_
  exact works_check fd (os.tcsetattr fd (tio.configured c))
    (List.mem_cons_of_mem _ (List.mem_singleton_self _))

def serialWhats (device : Text) : List Text :=
  ["cannot open device ".toList ++ device, "Driver::openSerial cannot set serial options".toList,
    "Driver::openSerial cannot set baudrate".toList]

theorem setTerminalSpeed_uses {rate : TcRate} {w w' : Ω × List FdEvent} {b : Bool}
    (h : setTerminalSpeed os.audited.toSerialOs fd rate w = (b, w')) : LogUses fd w.2 w'.2 := by
  rw [setTerminalSpeed] at h
  dsimp only [OpenOs.audited, uses] at h
  rcases hattr : os.tcgetattr fd w.1 with ⟨_ | t, o⟩
  · rw [hattr] at h
    cases h
    exact .once fd _
  rw [hattr] at h
  dsimp only at h
  rcases hin : os.cfsetispeed t rate with _ | t₁
  · rw [hin] at h
    cases h
    exact .once fd _
  rw [hin] at h
  dsimp only at h
  rcases hout : os.cfsetospeed t₁ rate with _ | t₂
  · rw [hout] at h
    cases h
    exact .once fd _
  rw [hout] at h
  cases h
  exact (LogUses.once fd _).trans (.once fd _)

theorem setSerialBaudrate_uses {brate : ℤ} {w w' : Ω × List FdEvent} {b : Bool}
    (h : setSerialBaudrate os.audited.toSerialOs fd brate w = .ok (b, w')) :
    LogUses fd w.2 w'.2 := by
  have hstart : LogUses fd w.2 (w.2 ++ [.used fd] ++ [.used fd]) :=
    (LogUses.once fd _).trans (.once fd _)
  rw [setSerialBaudrate] at h
  rcases hrate : tcRate brate with _ | rate
  · rw [hrate] at h
    dsimp only at h
    split at h
    · cases h
    · cases h
      exact .once fd _
    · exact hstart.trans (setTerminalSpeed_uses (Except.ok.inj h))
  · rw [hrate] at h
    exact hstart.trans (setTerminalSpeed_uses (Except.ok.inj h))

theorem openTerminal_holds {device : Text} {w w' : Ω × List FdEvent} {r : Except Exn ℤ}
    (hw : Has F w) (h : openTerminal os.audited.toSerialOs (.ofList device) w = (r, w')) :
    match r with
    | .ok fd => fd ∉ F ∧ Has (insert fd F) w'
    | .error x => Failed (serialWhats device) F x.toUnixError w' := by
  rw [openTerminal] at h
  obtain ⟨o, hnone⟩ | ⟨fd, o, hsome, hfresh⟩ := handsOut_cases (os.openDevice (.ofList device)) w
  · have hopen : os.audited.toSerialOs.openDevice (.ofList device) w = (none, o, w.2) := hnone
    rw [hopen] at h
    cases h
    exact ⟨by simp [serialWhats, Exn.toUnixError], hw⟩
  · have hopen : os.audited.toSerialOs.openDevice (.ofList device) w =
        (some fd, o, w.2 ++ [.opened fd]) := hsome
    have hnot := hw.isOpen_eq_false.mp hfresh
    have hused := (hw.opened hnot).used (Set.mem_insert fd F)
    rw [hopen] at h
    dsimp only [OpenOs.audited, uses] at h
    rcases hb : os.tcsetattr fd ⟨IGNBRK, CS8 ||| CREAD, none, none⟩ o with ⟨_ | _, o'⟩
    · rw [hb] at h
      cases h
      exact ⟨by simp [serialWhats, Exn.toUnixError], hused.restored hnot⟩
    · rw [hb] at h
      cases h
      exact ⟨hnot, hused⟩

theorem openSerialIO_holds {device : Text} {brate : ℤ} {w w' : Ω × List FdEvent}
    {r : Except Exn ℤ} (hw : Has F w)
    (h : openSerialIO os.audited.toSerialOs (.ofList device) brate w = .ok (r, w')) :
    match r with
    | .ok fd => fd ∉ F ∧ Has (insert fd F) w'
    | .error x => Failed (serialWhats device) F x.toUnixError w' := by
  unfold openSerialIO at h
  rcases hterminal : openTerminal os.audited.toSerialOs (.ofList device) w with ⟨x | fd, w₁⟩
  · have hfailed := openTerminal_holds hw hterminal
    rw [hterminal] at h
    cases h
    exact hfailed
  · obtain ⟨hnot, hopen⟩ : fd ∉ F ∧ Has (insert fd F) w₁ := openTerminal_holds hw hterminal
    rw [hterminal] at h
    dsimp only at h
    rcases hset : setSerialBaudrate os.audited.toSerialOs fd brate w₁ with fault | ⟨_ | _, w₂⟩
    · rw [hset] at h
      cases h
    · have hused := hopen.uses (Set.mem_insert fd F) (setSerialBaudrate_uses hset)
      rw [hset] at h
      cases h
      exact ⟨by simp [serialWhats, Exn.toUnixError], hused.restored hnot⟩
    · have hused := hopen.uses (Set.mem_insert fd F) (setSerialBaudrate_uses hset)
      rw [hset] at h
      cases h
      exact ⟨hnot, hused⟩

end IodriversBase
