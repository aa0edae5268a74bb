import IodriversBase.Ownership

namespace IodriversBase

open Loop Programs

variable {Ω σ τ : Type}

/-- How many descriptors are lost when an operation of a stream ends in this way.  The error of
`setNonBlockingFlag` is that of a server which has accepted a client. -/
def Exn.lost : Exn → ℕ
  | .unixError what _ => if what = "cannot set the O_NONBLOCK flag" then 1 else 0
  | _ => 0

def lostBy {α : Type} : Except Exn α → ℕ
  | .error x => x.lost
  | .ok _ => 0

theorem lostBy_unixError {α : Type} {what : String} (h : what ≠ "cannot set the O_NONBLOCK flag")
    (errno : ℕ) : lostBy (.error (.unixError what errno) : Except Exn α) = 0 := if_neg h

@[simp] theorem lostBy_map {α β : Type} (f : α → β) (r : Except Exn α) :
    lostBy (r.map f) = lostBy r := by
  cases r <;> rfl

theorem lostBy_selected {what : String} (h : what ≠ "cannot set the O_NONBLOCK flag")
    (answer : Except ℕ (List ℤ × List ℤ)) : lostBy (selected what answer) = 0 := by
  unfold selected
  rcases answer with errno | ready
  · dsimp only
    split_ifs
    · exact lostBy_unixError h errno
    · rfl
  · rfl

/-- Every operation moves the world along `R`, the destructor apart; `R n` if it loses `n`
descriptors. -/
structure IOStream.Moves (st : IOStream σ) (R : ℕ → σ → σ → Prop) : Prop where
  waitRead : ∀ t w, R (lostBy (st.waitRead t w).1) w (st.waitRead t w).2
  waitWrite : ∀ t w, R (lostBy (st.waitWrite t w).1) w (st.waitWrite t w).2
  read : ∀ n w, R (lostBy (st.read n w).1) w (st.read n w).2
  write : ∀ data w, R (lostBy (st.write data w).1) w (st.write data w).2
  clear : ∀ w, R 0 w (st.clear w)

theorem IOStream.Moves.within {st : IOStream τ} {R : ℕ → τ → τ → Prop} {R' : ℕ → σ → σ → Prop}
    {get : σ → τ} {set : σ → τ → σ} (h : st.Moves R)
    (hR : ∀ n w t, R n (get w) t → R' n w (set w t)) : (st.within get set).Moves R' where
  waitRead t w := hR _ _ _ (h.waitRead t (get w))
  waitWrite t w := hR _ _ _ (h.waitWrite t (get w))
  read n w := hR _ _ _ (h.read n (get w))
  write data w := hR _ _ _ (h.write data (get w))
  clear w := hR _ _ _ (h.clear (get w))

section Streams

variable {os : OpenOs Ω} {id : ℕ} {fd : ℤ}

def MachineUses (fd : ℤ) (n : ℕ) (m m' : Machine (Ω × List FdEvent)) : Prop :=
  n = 0 ∧ LogUses fd m.os.2 m'.os.2

theorem descriptorStream_lost {os : Os Ω} {osRead osWrite} {autoClose hasEof : Bool} (n : ℕ)
    (data : Bytes) (m : Machine Ω) :
    lostBy ((descriptorStream os osRead osWrite id fd autoClose hasEof).read n m).1 = 0 ∧
      lostBy ((descriptorStream os osRead osWrite id fd autoClose hasEof).write data m).1 = 0 := by
  simp only [descriptorStream]
  constructor
  · rcases osRead n m.os with ⟨errno | c, w⟩
    · dsimp only
      split_ifs
      · rfl
      · exact lostBy_unixError (by decide) errno
    · rfl
  · rcases osWrite data m.os with ⟨errno | k, w⟩
    · dsimp only
      split_ifs
      · exact lostBy_unixError (by decide) errno
      · rfl
    · rfl

theorem descriptorStream_moves {osRead osWrite} {autoClose hasEof : Bool}
    (hread : ∀ n (w : Ω × List FdEvent), LogUses fd w.2 (osRead n w).2.2)
    (hwrite : ∀ data (w : Ω × List FdEvent), LogUses fd w.2 (osWrite data w).2.2) :
    (descriptorStream os.audited.toOs osRead osWrite id fd autoClose hasEof).Moves
      (MachineUses fd) where
  waitRead _ m := ⟨lostBy_selected (by decide) _, .once fd m.os.2⟩
  waitWrite _ m := ⟨lostBy_selected (by decide) _, .once fd m.os.2⟩
  read n m := by
    refine ⟨(descriptorStream_lost n [] m).1, ?_⟩
    rw [descriptorStream_read_os]
    exact hread n m.os
  write data m := by
    refine ⟨(descriptorStream_lost 0 data m).2, ?_⟩
    rw [descriptorStream_write_os]
    exact hwrite data m.os
  clear m := ⟨rfl, .refl fd m.os.2⟩

theorem fdStream_moves (os : OpenOs Ω) (id : ℕ) (fd : ℤ) (autoClose hasEof : Bool) :
    (fdStream os.audited.toOs id fd autoClose hasEof).Moves (MachineUses fd) :=
  descriptorStream_moves (fun _ w => .once fd w.2) fun _ w => .once fd w.2

theorem socketStream_moves (os : OpenOs Ω) (sendFlags recvFlags : ℤ) (id : ℕ) (fd : ℤ)
    (autoClose hasEof : Bool) :
    (socketStream os.audited.toOs sendFlags recvFlags id fd autoClose hasEof).Moves
      (MachineUses fd) :=
  descriptorStream_moves (fun _ w => .once fd w.2) fun _ w => .once fd w.2

def SocketUses (fd : ℤ) (n : ℕ) (s s' : Socket (Ω × List FdEvent)) : Prop :=
  n = 0 ∧ LogUses fd s.os.2 s'.os.2

theorem onSocket_moves {st : IOStream (Machine (Ω × List FdEvent))}
    (h : st.Moves (MachineUses fd)) : st.onSocket.Moves (SocketUses fd) where
  waitRead t s := h.waitRead t s.toMachine
  waitWrite t s := h.waitWrite t s.toMachine
  read n s := h.read n s.toMachine
  write data s := h.write data s.toMachine
  clear s := h.clear s.toMachine

theorem UDPServerStream.read_uses (u : UDPServerStream) (n : ℕ) (s : Socket (Ω × List FdEvent)) :
    SocketUses u.fd (lostBy (u.read os.audited.toDatagramOs n s).1) s
      (u.read os.audited.toDatagramOs n s).2 := by
  rw [UDPServerStream.read]
  split_ifs
  · exact ⟨lostBy_unixError (by decide) _, .refl _ _⟩
  · dsimp only [Socket.recvfrom, OpenOs.audited, uses]
    rcases os.recvfrom u.fd n false s.os.1 with ⟨err | ⟨data, address⟩, o⟩
    · dsimp only
      split_ifs
      · exact ⟨rfl, .once _ _⟩
      · exact ⟨rfl, .once _ _⟩
      · exact ⟨lostBy_unixError (by decide) err, .once _ _⟩
    · exact ⟨rfl, .once _ _⟩

theorem UDPServerStream.write_uses (u : UDPServerStream) (data : Bytes)
    (s : Socket (Ω × List FdEvent)) :
    SocketUses u.fd (lostBy (u.write os.audited.toDatagramOs data s).1) s
      (u.write os.audited.toDatagramOs data s).2 := by
  rw [UDPServerStream.write]
  split_ifs
  · dsimp only [OpenOs.audited, uses]
    rcases os.sendto u.fd data s.siOther s.sLen s.os.1 with ⟨err | k, o⟩
    · dsimp only
      split_ifs
      · exact ⟨rfl, .once _ _⟩
      · exact ⟨rfl, .once _ _⟩
      · exact ⟨lostBy_unixError (by decide) err, .once _ _⟩
    · exact ⟨rfl, .once _ _⟩
  · exact ⟨rfl, .refl _ _⟩

theorem UDPServerStream.waitRead_uses (u : UDPServerStream) {fuel : ℕ} {t : Time}
    {s s' : Socket (Ω × List FdEvent)} {r : Except Exn Bool}
    (h : u.waitRead os.audited.toDatagramOs fuel t s = some (r, s')) :
    SocketUses u.fd (lostBy r) s s' := by
  have hbase : (u.base os.audited.toDatagramOs).Moves (SocketUses (Ω := Ω) u.fd) :=
    onSocket_moves (fdStream_moves os _ _ _ _)
  rw [UDPServerStream.waitRead] at h
  split_ifs at h
  · cases h
    exact ⟨rfl, .refl _ _⟩
  · have hstart : LogUses u.fd s.os.2 s.os.2 := .refl _ _
    refine run_rule (I := fun a : Time × Socket _ => LogUses u.fd s.os.2 a.2.os.2)
      (Q := fun b : Except Exn Bool × Socket _ => SocketUses u.fd (lostBy b.1) s b.2) ?_ hstart h
    rintro ⟨now, s₁⟩ hs₁
    have hwait {t : Time} {r : Except Exn Bool} {s₂ : Socket _}
        (hr : (u.base os.audited.toDatagramOs).waitRead t s₁ = (r, s₂)) :
        SocketUses u.fd (lostBy r) s s₂ := by
      obtain ⟨hlost, hmoved⟩ := hbase.waitRead t s₁
      rw [hr] at hlost hmoved
      exact ⟨hlost, hs₁.trans hmoved⟩
    rw [UDPServerStream.waitReadIteration]
    dsimp only
    split_ifs with hnow
    · rcases hr : (u.base os.audited.toDatagramOs).waitRead (_ - now) s₁ with ⟨x | _ | _, s₂⟩
      · exact hwait hr
      · exact hwait hr
      · -- a look at the error is one more use
        have hlooked : LogUses u.fd s.os.2 (s₂.os.2 ++ [.used u.fd]) :=
          (hwait hr).2.trans (.once _ _)
        dsimp only
        rcases hl : Socket.recvfrom os.audited.toDatagramOs u.fd 0 true
          (s₂.withMachine (s₂.toMachine.withOs (os.audited.toDatagramOs.now s₂.os).2)) with
          ⟨err | a, s₃⟩
        all_goals
          have hlog : s₂.os.2 ++ [.used u.fd] = s₃.os.2 := congrArg (fun r => r.2.os.2) hl
          rw [hlog] at hlooked
        · dsimp only
          split_ifs
          · exact hlooked
          · exact ⟨rfl, hlooked⟩
        · exact ⟨rfl, hlooked⟩
    · exact hwait rfl

theorem UDPServerStream.moves (u : UDPServerStream)
    (fuel : Time → Socket (Ω × List FdEvent) → ℕ) :
    (u.stream os.audited.toDatagramOs fuel).Moves (SocketUses u.fd) where
  waitRead t s := by
    simp only [UDPServerStream.stream]
    rcases hr : u.waitRead os.audited.toDatagramOs (fuel t s) t s with _ | ⟨r, s'⟩
    · exact ⟨rfl, .refl _ _⟩
    · exact u.waitRead_uses hr
  waitWrite t s := ⟨lostBy_selected (by decide) _, .once _ _⟩
  read := u.read_uses
  write := u.write_uses
  clear s := ⟨rfl, .refl _ _⟩

theorem UnixDatagramStream.moves (x : UnixDatagramStream) :
    (x.stream os.audited.toDatagramOs).Moves (SocketUses x.fd) where
  waitRead t s := ⟨lostBy_selected (by decide) _, .once _ _⟩
  waitWrite t s := ⟨lostBy_selected (by decide) _, .once _ _⟩
  read n s := by
    simp only [UnixDatagramStream.stream, UnixDatagramStream.read]
    dsimp only [Socket.recvfrom, OpenOs.audited, uses]
    rcases os.recvfrom x.fd n false s.os.1 with ⟨err | ⟨data, address⟩, o⟩
    · dsimp only
      split_ifs
      · exact ⟨rfl, .once _ _⟩
      · exact ⟨lostBy_unixError (by decide) err, .once _ _⟩
    · exact ⟨rfl, .once _ _⟩
  write data s := by
    simp only [UnixDatagramStream.stream, UnixDatagramStream.write]
    split_ifs
    · dsimp only [OpenOs.audited, uses]
      rcases os.sendto x.fd data s.siOther s.sLen s.os.1 with ⟨err | k, o⟩
      · dsimp only
        split_ifs
        · exact ⟨rfl, .once _ _⟩
        · exact ⟨lostBy_unixError (by decide) err, .once _ _⟩
      · exact ⟨rfl, .once _ _⟩
    · exact ⟨rfl, .refl _ _⟩
  clear s := ⟨rfl, .refl _ _⟩

def UnixServerStream.fds (x : UnixServerStream) (client : Option ℤ) : List (ℤ × Bool) :=
  (x.fd, x.autoClose) :: client.toList.map fun fd => (fd, true)

/-- An object goes on with its descriptors, whatever else is open, and leaves `n` more open that
nobody has. -/
def Loses (n : ℕ) (fds fds' : List (ℤ × Bool)) (log log' : List FdEvent) : Prop :=
  ∀ F, Owns F fds log → ∃ lost : List ℤ, lost.length = n ∧ lost.Nodup ∧ (∀ fd ∈ lost, fd ∉ F) ∧
    Owns (F ∪ {fd | fd ∈ lost}) fds' log'

section Loses

variable {m n : ℕ} {fds fds' fds'' : List (ℤ × Bool)} {log log' log'' : List FdEvent}

theorem Loses.of_owns (h : ∀ F, Owns F fds log → Owns F fds' log') : Loses 0 fds fds' log log' := by
  intro F hs
  have hnone : (F ∪ {fd | fd ∈ ([] : List ℤ)} : Set ℤ) = F := by simp
  refine ⟨[], rfl, List.nodup_nil, by simp, ?_⟩
  rw [hnone]
  exact h F hs

theorem Loses.refl (fds : List (ℤ × Bool)) (log : List FdEvent) : Loses 0 fds fds log log :=
  .of_owns fun _ hs => hs

theorem Loses.of_uses {autoClose : Bool} (hfd : (fd, autoClose) ∈ fds) (hlog : LogUses fd log log')
    (hn : n = 0) : Loses n fds fds log log' :=
  hn ▸ .of_owns fun _ hs => hs.uses hfd hlog

theorem Loses.trans (h : Loses n fds fds' log log') (h' : Loses m fds' fds'' log' log'') :
    Loses (n + m) fds fds'' log log'' := by
  intro F hs
  obtain ⟨lost, hlength, hnodup, hapart, hs'⟩ := h F hs
  obtain ⟨lost', hlength', hnodup', hapart', hs''⟩ := h' _ hs'
  refine ⟨lost ++ lost', by rw [List.length_append, hlength, hlength'], ?_, ?_, ?_⟩
  · refine List.nodup_append.mpr ⟨hnodup, hnodup', fun fd hfd fd' hfd' => ?_⟩
    rintro rfl
    exact hapart' fd hfd' (.inr hfd)
  · intro fd hfd
    rcases List.mem_append.mp hfd with hfd | hfd
    · exact hapart fd hfd
    · exact fun hF => hapart' fd hfd (.inl hF)
  · have hset : F ∪ {fd | fd ∈ lost ++ lost'} = F ∪ {fd | fd ∈ lost} ∪ {fd | fd ∈ lost'} := by
      ext fd
      simp only [Set.mem_union, Set.mem_ofPred_eq, List.mem_append, or_assoc]
    rw [hset]
    exact hs''

theorem Loses.opened (hfresh : isOpen fd log = false)
    (hlog : LogUses fd (log ++ [.opened fd]) log') : Loses 1 fds fds log log' := by
  intro F hs
  have hnot := hs.holds.isOpen_eq_false.mp hfresh
  refine ⟨[fd], rfl, List.nodup_singleton fd, ?_, hs.beside Set.subset_union_left ?_ ?_⟩
  · intro fd' hfd'
    rw [List.mem_singleton.mp hfd']
    exact fun hF => hnot (.inr hF)
  · rintro fd' hfd' (hF | hlost)
    · exact hs.closes fd' hfd' hF
    · rw [List.mem_singleton.mp hlost] at hfd'
      exact hnot (.inl hfd')
  · have hopened := (hs.holds.opened hnot).uses (Set.mem_insert fd _) hlog
    refine hopened.congr fun fd' => ?_
    simp only [Set.mem_insert_iff, Set.mem_union, Set.mem_ofPred_eq, List.mem_singleton]
    tauto

end Loses

/-- The server goes on with its descriptors, and perhaps a client that has come. -/
def UnixServerStream.Tends (x : UnixServerStream) (n : ℕ) (s s' : Server (Ω × List FdEvent)) :
    Prop := Loses n (x.fds s.client) (x.fds s'.client) s.os.2 s'.os.2

variable {x : UnixServerStream} {s s' s'' : Server (Ω × List FdEvent)} {n : ℕ}

theorem UnixServerStream.Tends.refl (x : UnixServerStream) (s : Server (Ω × List FdEvent)) :
    x.Tends 0 s s := Loses.refl _ _

theorem UnixServerStream.Tends.then (h : x.Tends 0 s s') (h' : x.Tends n s' s'') :
    x.Tends n s s'' := by
  rw [← n.zero_add]
  exact Loses.trans h h'

theorem UnixServerStream.Tends.of_uses {autoClose : Bool}
    (hfd : (fd, autoClose) ∈ x.fds s.client) (hclient : s'.client = s.client)
    (hlog : n = 0 ∧ LogUses fd s.os.2 s'.os.2) : x.Tends n s s' := by
  rw [UnixServerStream.Tends, hclient]
  exact Loses.of_uses hfd hlog.2 hlog.1

theorem UnixServerStream.client_moves (hclient : s.client = some fd) :
    (∀ t, x.Tends (lostBy ((x.clientStream os.audited.toOs fd).waitRead t s).1) s
        ((x.clientStream os.audited.toOs fd).waitRead t s).2) ∧
      (∀ t, x.Tends (lostBy ((x.clientStream os.audited.toOs fd).waitWrite t s).1) s
        ((x.clientStream os.audited.toOs fd).waitWrite t s).2) ∧
      (∀ n, x.Tends (lostBy ((x.clientStream os.audited.toOs fd).read n s).1) s
        ((x.clientStream os.audited.toOs fd).read n s).2) ∧
      ∀ data, x.Tends (lostBy ((x.clientStream os.audited.toOs fd).write data s).1) s
        ((x.clientStream os.audited.toOs fd).write data s).2 := by
  have hmoves := socketStream_moves os MSG_NOSIGNAL 0 x.id fd true true
  have hmem : (fd, true) ∈ x.fds s.client := by simp [UnixServerStream.fds, hclient]
  exact ⟨fun t => .of_uses hmem rfl (hmoves.waitRead t s.toMachine),
    fun t => .of_uses hmem rfl (hmoves.waitWrite t s.toMachine),
    fun n => .of_uses hmem rfl (hmoves.read n s.toMachine),
    fun data => .of_uses hmem rfl (hmoves.write data s.toMachine)⟩

theorem audited_accept_cases (os : OpenOs Ω) (fd : ℤ) (w : Ω × List FdEvent) :
    (∃ errno o, os.audited.accept fd w = (.error errno, o, w.2 ++ [.used fd])) ∨
      ∃ client o, os.audited.accept fd w =
        (.ok client, o, w.2 ++ [.used fd] ++ [.opened client]) ∧ isOpen client w.2 = false := by
  simp only [OpenOs.audited]
  rcases os.accept fd w.1 with ⟨errno | client, o⟩
  · exact .inl ⟨errno, o, rfl⟩
  · dsimp only
    split_ifs with hfresh
    · exact .inr ⟨client, o, rfl, hfresh⟩
    · exact .inl ⟨EAGAIN, o, rfl⟩

/-- The client that is accepted is one more descriptor, which is lost if its flags cannot be
set. -/
theorem UnixServerStream.accept_tends (hnone : s.client = none) :
    x.Tends (lostBy (x.accept os.audited.toOs s).1) s (x.accept os.audited.toOs s).2 := by
  have hserver : x.getFileDescriptor s = x.fd := by rw [UnixServerStream.getFileDescriptor, hnone]
  have hmem : (x.fd, x.autoClose) ∈ x.fds s.client := List.mem_cons_self ..
  rw [UnixServerStream.accept, hserver]
  obtain ⟨errno, o, haccept⟩ | ⟨client, o, haccept, hfresh⟩ := audited_accept_cases os x.fd s.os
  · have haccept' : os.audited.toOs.accept x.fd s.os = _ := haccept
    rw [haccept']
    exact .of_uses hmem rfl ⟨lostBy_unixError (by decide) errno, .once _ _⟩
  have haccept' : os.audited.toOs.accept x.fd s.os = _ := haccept
  have hused : Loses 0 (x.fds s.client) (x.fds s.client) s.os.2 (s.os.2 ++ [.used x.fd]) :=
    .of_uses hmem (.once _ _) rfl
  have hfresh' : isOpen client (s.os.2 ++ [.used x.fd]) = false := by
    rw [isOpen_append, hfresh]
    rfl
  have hflags : LogUses client (s.os.2 ++ [.used x.fd] ++ [.opened client])
      (setNonBlockingFlag os.audited.toOs client
        (o, s.os.2 ++ [.used x.fd] ++ [.opened client])).2.2 :=
    setNonBlockingFlag_uses os.toOs client _
  rw [haccept']
  dsimp only
  rcases hset : setNonBlockingFlag os.audited.toOs client
    (o, s.os.2 ++ [.used x.fd] ++ [.opened client]) with ⟨e | _, o'⟩
  all_goals rw [hset] at hflags ⊢
  · have herror : (setNonBlockingFlag os.audited.toOs client
        (o, s.os.2 ++ [.used x.fd] ++ [.opened client])).1 = .error e := by rw [hset]
    obtain ⟨errno, rfl⟩ := setNonBlockingFlag_error herror
    exact hused.trans (.opened hfresh' hflags)
  · refine Loses.trans hused (.of_owns fun F hs => ?_)
    have hfds : x.fds (some client) = x.fds s.client ++ [(client, true)] := by
      rw [UnixServerStream.fds, UnixServerStream.fds, hnone]
      rfl
    rw [hfds]
    exact (hs.opened hfresh').uses (List.mem_append_right _ (List.mem_singleton_self _)) hflags

theorem UnixServerStream.waitRead_tends (t : Time) (s : Server (Ω × List FdEvent)) :
    x.Tends (lostBy (x.waitRead os.audited.toOs t s).1) s (x.waitRead os.audited.toOs t s).2 := by
  rw [UnixServerStream.waitRead]
  rcases hclient : s.client with _ | fd
  · have hmoves := fdStream_moves os x.id x.fd false true
    have hmem : (x.fd, x.autoClose) ∈ x.fds s.client := List.mem_cons_self ..
    have hwait : x.Tends (lostBy ((x.serverStream os.audited.toOs).waitRead t s).1) s
        ((x.serverStream os.audited.toOs).waitRead t s).2 :=
      .of_uses hmem rfl (hmoves.waitRead t s.toMachine)
    have hnone : ((x.serverStream os.audited.toOs).waitRead t s).2.client = none := hclient
    rcases hr : (x.serverStream os.audited.toOs).waitRead t s with ⟨e | _ | _, s₁⟩
    all_goals rw [hr] at hwait hnone
    · exact hwait
    · exact hwait
    · dsimp only
      rw [lostBy_map]
      exact UnixServerStream.Tends.then hwait (accept_tends hnone)
  · exact (client_moves hclient).1 t

theorem UnixServerStream.readClient_tends (n : ℕ) (s : Server (Ω × List FdEvent)) :
    x.Tends (lostBy (x.readClient os.audited.toOs n s).1) s
      (x.readClient os.audited.toOs n s).2 := by
  rw [UnixServerStream.readClient]
  rcases hclient : s.client with _ | fd
  · exact .refl x s
  · exact (client_moves hclient).2.2.1 n

theorem UnixServerStream.moves (x : UnixServerStream) :
    (x.stream os.audited.toOs).Moves x.Tends where
  waitRead := x.waitRead_tends
  waitWrite t s := by
    simp only [UnixServerStream.stream, UnixServerStream.waitWrite]
    rcases hclient : s.client with _ | fd
    · exact .refl x s
    · exact (client_moves hclient).2.1 t
  read n s := by
    simp only [UnixServerStream.stream, UnixServerStream.read]
    split_ifs
    · have hwait : x.Tends (lostBy (x.waitRead os.audited.toOs 0 s).1) s
          (x.waitRead os.audited.toOs 0 s).2 := x.waitRead_tends 0 s
      rcases hr : x.waitRead os.audited.toOs 0 s with ⟨e | _ | _, s₁⟩
      all_goals rw [hr] at hwait
      · exact hwait
      · exact hwait
      · exact UnixServerStream.Tends.then hwait (x.readClient_tends n s₁)
    · exact x.readClient_tends n s
  write data s := by
    simp only [UnixServerStream.stream, UnixServerStream.write]
    rcases hclient : s.client with _ | fd
    · exact .refl x s
    · exact (client_moves hclient).2.2.2 data
  clear s := by
    rw [UnixServerStream.stream_clear]
    exact .refl x s

def Backed.fds (id : ℕ) (w : Objects Ω) : Backed Ω → List (ℤ × Bool)
  | .fdStream fd autoClose _ => [(fd, autoClose)]
  | .socketStream _ _ fd autoClose _ => [(fd, autoClose)]
  | .udpServerStream u _ => [(u.fd, u.autoClose)]
  | .unixDatagramStream x => [(x.fd, x.autoClose)]
  | .unixServerStream x => x.fds (w.client id)

def MainStream.fds (id : ℕ) (h : Heap Ω) : MainStream Ω → List (ℤ × Bool)
  | .backed b => b.fds id h.toObjects
  | .testStream => []

def MainStream.Tends (main : MainStream (Ω × List FdEvent)) (id n : ℕ)
    (h h' : Heap (Ω × List FdEvent)) : Prop :=
  Loses n (main.fds id h) (main.fds id h') h.os.2 h'.os.2

theorem Backed.moves (b : Backed (Ω × List FdEvent)) (id : ℕ) :
    (b.stream os.audited.toDatagramOs id).Moves fun n w w' =>
      Loses n (b.fds id w) (b.fds id w') w.os.2 w'.os.2 := by
  cases b with
  | fdStream fd autoClose hasEof =>
    refine (fdStream_moves os id fd autoClose hasEof).within fun n w m h => ?_
    exact .of_uses (List.mem_singleton_self _) h.2 h.1
  | socketStream sendFlags recvFlags fd autoClose hasEof =>
    have hmoves := socketStream_moves os sendFlags recvFlags id fd autoClose hasEof
    refine hmoves.within fun n w m h => ?_
    exact .of_uses (List.mem_singleton_self _) h.2 h.1
  | udpServerStream u fuel =>
    refine (UDPServerStream.moves { u with id := id } fuel).within fun n w m h => ?_
    exact .of_uses (List.mem_singleton_self _) h.2 h.1
  | unixDatagramStream x =>
    refine (UnixDatagramStream.moves { x with id := id }).within fun n w m h => ?_
    exact .of_uses (List.mem_singleton_self _) h.2 h.1
  | unixServerStream x =>
    refine (UnixServerStream.moves { x with id := id }).within fun n w s h => ?_
    have hclient : (w.withServer id s).client id = s.client := Function.update_self ..
    rw [Backed.fds, Backed.fds, hclient]
    exact h

theorem TestStream.write_lost (s : TestStream) (data : Bytes) : lostBy (s.write data).1 = 0 := by
  rw [TestStream.write]
  split_ifs
  · split
    · rfl
    · split_ifs
      · rfl
      · rfl
  · rfl

theorem MainStream.moves (main : MainStream (Ω × List FdEvent)) (id : ℕ) :
    (main.stream os.audited.toDatagramOs id).Moves (main.Tends id) := by
  cases main with
  | backed b => exact (b.moves id).within fun _ _ _ hw => hw
  | testStream =>
    have hsame {n : ℕ} (h : Heap (Ω × List FdEvent)) (t : TestStream) (hn : n = 0) :
        MainStream.testStream.Tends id n h (h.withTest id t) := hn ▸ Loses.refl [] h.os.2
    exact ⟨fun _ h => hsame h _ rfl, fun _ h => hsame h _ rfl, fun _ h => hsame h _ rfl,
      fun data h => hsame h _ ((h.test id).write_lost data), fun h => hsame h _ rfl⟩

def closeAll (os : Os Ω) (fds : List (ℤ × Bool)) (w : Ω) : Ω :=
  (fds.filter Prod.snd).foldl (fun w fd => os.close fd.1 w) w

theorem closeAll_cons {os : Os Ω} (fd : ℤ) (autoClose : Bool) (fds : List (ℤ × Bool)) (w : Ω) :
    closeAll os ((fd, autoClose) :: fds) w =
      closeAll os fds (if autoClose then os.close fd w else w) := by
  cases autoClose <;> rfl

theorem closeAll_rule {os : Os Ω} {P : Ω → Prop} {fds : List (ℤ × Bool)} {w : Ω}
    (hclose : ∀ fd w, (fd, true) ∈ fds → P w → P (os.close fd w)) (hw : P w) :
    P (closeAll os fds w) := by
  induction fds generalizing w with
  | nil => exact hw
  | cons fd fds ih =>
    obtain ⟨fd, autoClose⟩ := fd
    rw [closeAll_cons]
    refine ih (fun fd w hfd => hclose fd w (List.mem_cons_of_mem _ hfd)) ?_
    cases autoClose with
    | true => exact hclose fd w List.mem_cons_self hw
    | false => exact hw

theorem closeAll_log (fds : List (ℤ × Bool)) (w : Ω × List FdEvent) :
    (closeAll os.audited.toOs fds w).2 = w.2 ++ closing fds := by
  induction fds generalizing w with
  | nil => exact (List.append_nil _).symm
  | cons fd fds ih =>
    obtain ⟨fd, autoClose⟩ := fd
    rw [closeAll_cons, ih]
    cases autoClose with
    | true => exact List.append_assoc _ [FdEvent.closed fd] _
    | false => rfl

theorem fdStream_delete_os (os : Os Ω) (id : ℕ) (fd : ℤ) (autoClose hasEof : Bool)
    (m : Machine Ω) : ((fdStream os id fd autoClose hasEof).delete m).os =
      closeAll os [(fd, autoClose)] m.os := by
  cases autoClose <;> rfl

theorem socketStream_delete_os (os : Os Ω) (sendFlags recvFlags : ℤ) (id : ℕ) (fd : ℤ)
    (autoClose hasEof : Bool) (m : Machine Ω) :
    ((socketStream os sendFlags recvFlags id fd autoClose hasEof).delete m).os =
      closeAll os [(fd, autoClose)] m.os := by
  cases autoClose <;> rfl

theorem UnixServerStream.delete_os (os : Os Ω) (x : UnixServerStream) (s : Server Ω) :
    ((x.stream os).delete s).os = closeAll os (x.fds s.client) s.os := by
  have hserver : (if x.autoClose then s.withMachine (s.toMachine.withOs (os.close x.fd s.os))
      else s).os = if x.autoClose then os.close x.fd s.os else s.os := by
    split_ifs
    · rfl
    · rfl
  have hclient : (if x.autoClose then s.withMachine (s.toMachine.withOs (os.close x.fd s.os))
      else s).client = s.client := by
    split_ifs
    · rfl
    · rfl
  rw [UnixServerStream.fds, closeAll_cons, ← hserver, ← hclient]
  simp only [UnixServerStream.stream]
  generalize (if x.autoClose then s.withMachine (s.toMachine.withOs (os.close x.fd s.os))
    else s) = s₁
  rcases hclient₁ : s₁.client with _ | fd
  · rfl
  · exact socketStream_delete_os os MSG_NOSIGNAL 0 x.id fd true true _

/-- The destructor closes the descriptors that the object is to close, and no others. -/
theorem MainStream.delete_os (os : DatagramOs Ω) (main : MainStream Ω) (id : ℕ) (h : Heap Ω) :
    ((main.stream os id).delete h).os = closeAll os.toOs (main.fds id h) h.os := by
  cases main with
  | backed b =>
    cases b with
    | fdStream fd autoClose hasEof => exact fdStream_delete_os os.toOs id fd autoClose hasEof _
    | socketStream sendFlags recvFlags fd autoClose hasEof =>
      exact socketStream_delete_os os.toOs sendFlags recvFlags id fd autoClose hasEof _
    | udpServerStream u fuel => exact fdStream_delete_os os.toOs id u.fd u.autoClose true _
    | unixDatagramStream x => exact fdStream_delete_os os.toOs id x.fd x.autoClose true _
    | unixServerStream x => exact UnixServerStream.delete_os os.toOs { x with id := id } _
  | testStream => rfl

theorem MainStream.delete_client (main : MainStream (Ω × List FdEvent)) {id id' : ℕ}
    (hid : id' ≠ id) (h : Heap (Ω × List FdEvent)) :
    ((main.stream os.audited.toDatagramOs id).delete h).client id' = h.client id' := by
  cases main with
  | backed b =>
    cases b with
    | unixServerStream x => exact Function.update_of_ne hid _ _
    | _ => rfl
  | testStream => rfl

end Streams

def Owner.fds (s : Owner Ω) : List (ℤ × Bool) :=
  match s.main with
  | some main => main.fds s.number s.world.world
  | none => []

/-- Beside those of the main stream, the descriptors `F` are open.  The listeners `ls` leave the
log alone. -/
structure Owner.Has (ls : List (ℕ × IOListener Ω)) (F : Set ℤ) (s : Owner (Ω × List FdEvent)) :
    Prop where
  listeners : s.listeners = ls.map fun l => (l.1, l.2.logged)
  owns : Owns F s.fds s.os.2

section Members

variable {os : OpenOs Ω} {ls : List (ℕ × IOListener Ω)} {F : Set ℤ} {fd : ℤ}
  {s t : Owner (Ω × List FdEvent)} {whats : List Text}

theorem Owner.delete_os (os : DatagramOs Ω) (s : Owner Ω) :
    (s.delete os).os = closeAll os.toOs s.fds s.os := by
  obtain ⟨_ | main, listeners, number, driver, world⟩ := s
  · rfl
  · exact main.delete_os os number world.world

theorem Owner.delete_log (s : Owner (Ω × List FdEvent)) :
    (s.delete os.audited.toDatagramOs).os.2 = s.os.2 ++ closing s.fds := by
  rw [Owner.delete_os]
  exact closeAll_log s.fds s.os

theorem Owner.delete_client (s : Owner (Ω × List FdEvent)) {id : ℕ} (hid : id ≠ s.number) :
    (s.delete os.audited.toDatagramOs).client id = s.world.world.client id := by
  obtain ⟨_ | main, listeners, number, driver, world⟩ := s
  · rfl
  · exact main.delete_client hid world.world

theorem Owner.fds_create (s : Owner Ω) (peer : Peer) :
    (s.withHeap (s.world.world.create (s.number + 1) peer)).fds = s.fds := by
  obtain ⟨_ | main, listeners, number, driver, world⟩ := s
  · rfl
  · cases main with
    | backed b =>
      cases b with
      | unixServerStream x =>
        have hclient : (world.world.create (number + 1) peer).client number =
            world.world.client number := Function.update_of_ne (Nat.lt_succ_self number).ne _ _
        exact congrArg x.fds hclient
      | _ => rfl
    | testStream => rfl

theorem Owner.Has.delete (h : s.Has ls F) : Holds F (s.delete os.audited.toDatagramOs).os.2 := by
  rw [Owner.delete_log]
  exact h.owns.deleted

theorem Owner.Has.close (h : s.Has ls F) : (s.close os.audited.toDatagramOs).Has ls F :=
  ⟨h.listeners, owns_nil.mpr h.delete⟩

theorem Owner.Has.create (h : s.Has ls F) (peer : Peer) :
    (s.withHeap (s.world.world.create (s.number + 1) peer)).Has ls F :=
  ⟨h.listeners, by rw [Owner.fds_create]; exact h.owns⟩

theorem Owner.Has.setMainStream (h : s.Has ls F) (hfd : fd ∈ F)
    {main : MainStream (Ω × List FdEvent)} {autoClose : Bool}
    (hmain : ∀ id (w : Heap (Ω × List FdEvent)), w.client id = none →
      main.fds id w = [(fd, autoClose)]) (peer : Peer) :
    (s.setMainStream os.audited.toDatagramOs main peer).Has ls (keptFrom F fd autoClose) := by
  have hdeleted : Holds F ((s.withHeap (s.world.world.create (s.number + 1) peer)).delete
      os.audited.toDatagramOs).os.2 := (h.create peer).delete
  have hcreated : (s.world.world.create (s.number + 1) peer).client (s.number + 1) = none :=
    Function.update_self ..
  have hclient : ((s.withHeap (s.world.world.create (s.number + 1) peer)).delete
      os.audited.toDatagramOs).client (s.number + 1) = none := by
    rw [Owner.delete_client]
    · exact hcreated
    · exact Nat.succ_ne_self s.number
  refine ⟨h.listeners, ?_⟩
  have hgive := hdeleted.give hfd autoClose
  rw [← hmain _ _ hclient] at hgive
  exact hgive

theorem Owner.Has.setTestStream (h : s.Has ls F) (peer : Peer) :
    (s.setMainStream os.audited.toDatagramOs .testStream peer).Has ls F :=
  ⟨h.listeners, owns_nil.mpr (h.create peer).delete⟩

theorem Owner.Has.makes (h : s.Has ls F) {w : Ω × List FdEvent}
    (hfd : fd ∉ ({fd | (fd, true) ∈ s.fds} ∪ F : Set ℤ))
    (hw : IodriversBase.Has (insert fd ({fd | (fd, true) ∈ s.fds} ∪ F)) w) :
    fd ∉ F ∧ (s.withOs w).Has ls (insert fd F) := by
  refine ⟨fun hF => hfd (.inr hF), h.listeners, h.owns.beside (Set.subset_insert fd F) ?_ ?_⟩
  · rintro fd' hfd' (rfl | hF)
    · exact hfd (.inl hfd')
    · exact h.owns.closes fd' hfd' hF
  · refine hw.congr fun fd' => ?_
    simp only [Set.mem_insert_iff, Set.mem_union]
    tauto

theorem Owner.Has.works (h : s.Has ls F) {w : Ω × List FdEvent}
    (hw : IodriversBase.Has ({fd | (fd, true) ∈ s.fds} ∪ F) w) : (s.withOs w).Has ls F :=
  ⟨h.listeners, h.owns.beside Set.Subset.rfl h.owns.closes hw⟩

theorem onOs_makes {α : Type} {f : Act (Ω × List FdEvent) UnixError α} {fd : α → ℤ}
    (hf : Makes whats f fd) :
    Ensures (Owner.Has ls F) (onOs f) (fun a s => fd a ∉ F ∧ s.Has ls (insert (fd a) F))
      (fun x s => x.what ∈ whats ∧ s.Has ls F) := by
  refine Ensures.within fun s hs =>
    (hf _ s.os hs.owns.holds).mono (fun a w hw => ?_) fun x w hw => ?_
  · exact hs.makes hw.1 hw.2
  · exact ⟨hw.1, hs.works hw.2⟩

theorem onOs_works (ls : List (ℕ × IOListener Ω)) {α : Type} {P : Owner (Ω × List FdEvent) → Prop}
    {f : Act (Ω × List FdEvent) UnixError α} (hf : Works whats fd f)
    (hP : ∀ s, P s → fd ∈ ({fd | (fd, true) ∈ s.fds} ∪ F : Set ℤ))
    (hsame : ∀ s w, P s → P (s.withOs w)) :
    Ensures (fun s => P s ∧ s.Has ls F) (onOs f) (fun _ s => P s ∧ s.Has ls F)
      (fun x s => x.what ∈ whats ∧ P s ∧ s.Has ls F) := by
  refine Ensures.within fun s hs => ?_
  refine (hf _ (hP s hs.1) s.os hs.2.owns.holds).mono (fun a w hw => ?_) fun x w hw => ?_
  · exact ⟨hsame s w hs.1, hs.2.works hw⟩
  · exact ⟨hw.1, hsame s w hs.1, hs.2.works hw.2⟩

/-- After an error: if it strays, a descriptor was left open that nobody has any more. -/
structure Thrown (ls : List (ℕ × IOListener Ω)) (F : Set ℤ) (strays : UnixError → Prop)
    (x : UnixError) (s : Owner (Ω × List FdEvent)) : Prop where
  stray : strays x → ∃ fd, fd ∉ F ∧ s.Has ls (insert fd F)
  clean : ¬ strays x → s.Has ls F

def NotMade (x : UnixError) : Prop := x.what = nonBlockingWhat

theorem newStream_meets (os : OpenOs Ω) (ls : List (ℕ × IOListener Ω))
    (main : MainStream (Ω × List FdEvent)) (autoClose : Bool)
    (hmain : ∀ id (w : Heap (Ω × List FdEvent)), w.client id = none →
      main.fds id w = [(fd, autoClose)]) (peer : Peer) (hfd : fd ∈ F) :
    Ensures (Owner.Has ls F) (newStream os.audited fd main peer)
      (fun _ s => s.main = some main ∧ s.Has ls (keptFrom F fd autoClose))
      (fun x s => NotMade x ∧ s.Has ls F) := by
  have hset := onOs_works ls (P := fun _ => True) (F := F)
    (setNonBlockingFlag_works os fd) (fun _ _ => .inr hfd) fun _ _ _ => trivial
  refine Ensures.bind (Q := fun _ s => s.Has ls F) ?_ fun _ => Ensures.act fun s hs => ?_
  · refine hset.mono (fun s hs => ⟨trivial, hs⟩) (fun _ s hs => hs.2) fun x s hs => ?_
    exact ⟨List.mem_singleton.mp hs.1, hs.2.2⟩
  · exact ⟨rfl, hs.setMainStream hfd hmain peer⟩

theorem keptFrom_insert (hfd : fd ∉ F) : keptFrom (insert fd F) fd true = F := by
  rw [keptFrom, if_pos rfl, Set.insert_sdiff_self_of_notMem hfd]

theorem makes_newStream (os : OpenOs Ω) (ls : List (ℕ × IOListener Ω)) {α : Type}
    {f : Act (Ω × List FdEvent) UnixError α} {fd : α → ℤ}
    (main : α → MainStream (Ω × List FdEvent)) (peer : α → Peer) (hf : Makes whats f fd)
    (hwhats : nonBlockingWhat ∉ whats)
    (hmain : ∀ a id (w : Heap (Ω × List FdEvent)), w.client id = none →
      (main a).fds id w = [(fd a, true)]) :
    Ensures (Owner.Has ls F)
      (do let a ← onOs f; newStream os.audited (fd a) (main a) (peer a))
      (fun _ s => (∃ a, s.main = some (main a)) ∧ s.Has ls F) (Thrown ls F NotMade) := by
  refine Ensures.bind (Q := fun a s => fd a ∉ F ∧ s.Has ls (insert (fd a) F)) ?_ fun a => ?_
  · refine (onOs_makes hf).mono (fun _ h => h) (fun _ _ h => h) fun x s hx => ?_
    exact ⟨fun hmade => absurd (hmade ▸ hx.1) hwhats, fun _ => hx.2⟩
  · intro s hs
    have hnew := newStream_meets os ls (main a) true (hmain a) (peer a)
      (Set.mem_insert (fd a) F) s hs.2
    refine hnew.mono (fun _ t ht => ?_) fun x t ht => ?_
    · rw [keptFrom_insert hs.1] at ht
      exact ⟨⟨a, ht.1⟩, ht.2⟩
    · exact ⟨fun _ => ⟨fd a, hs.1, ht.2⟩, fun hx => absurd ht.1 hx⟩

end Members

end IodriversBase
