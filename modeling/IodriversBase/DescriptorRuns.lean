import IodriversBase.Owners

namespace IodriversBase

open Programs

variable {Ω : Type} {os : OpenOs Ω} {ls : List (ℕ × IOListener Ω)} {F : Set ℤ} {fd : ℤ}
  {s t : Owner (Ω × List FdEvent)} {whats : List Text} {p q a b : Text}

theorem ne_append (h : ¬ p <+: a) : a ≠ p ++ b := by
  rintro rfl
  exact h (List.prefix_append p b)

theorem append_ne_append (hpq : ¬ p <+: q) (hqp : ¬ q <+: p) : p ++ a ≠ q ++ b := by
  intro h
  have hp : p <+: q ++ b := h ▸ List.prefix_append p a
  exact (List.prefix_or_prefix_of_prefix hp (List.prefix_append q b)).elim hpq hqp

theorem nonBlocking_notMem_server (port : Text) : nonBlockingWhat ∉ serverWhats port := by
  simp only [serverWhats, List.mem_cons, List.not_mem_nil, or_false, not_or]
  exact ⟨ne_append (by decide), ne_append (by decide)⟩

theorem nonBlocking_notMem_client (port : Text) : nonBlockingWhat ∉ clientWhats port := by
  simp only [clientWhats, List.mem_cons, List.not_mem_nil, or_false, not_or]
  exact ⟨ne_append (by decide), ne_append (by decide), ne_append (by decide)⟩

theorem client_notMem_server {port port' what : Text} (h : what ∈ clientWhats port) :
    what ∉ serverWhats port' := by
  simp only [clientWhats, List.mem_cons, List.not_mem_nil, or_false] at h
  simp only [serverWhats, List.mem_cons, List.not_mem_nil, or_false, not_or]
  rcases h with rfl | rfl | rfl
  all_goals
    exact ⟨append_ne_append (by decide) (by decide), append_ne_append (by decide) (by decide)⟩

theorem openIPClient_meets (hostname : Text) (port : ℤ) (hints : Hints) :
    Ensures (Owner.Has ls F) (openIPClient os.audited hostname port hints)
      (fun _ s => (∃ fd, s.main = some (.backed (.fdStream fd true true))) ∧ s.Has ls F)
      (Thrown ls F NotMade) := by
  have hmakes := makes_newStream (F := F) os ls (fun r => .backed (.fdStream r.1 true true))
    (fun _ => noPeer 0) (createIPClientSocket_makes os hostname (lexicalCast port) hints)
    (nonBlocking_notMem_client _) fun _ _ _ _ => rfl
  exact hmakes.mono (fun _ h => h) (fun _ s h => ⟨⟨_, h.1.choose_spec⟩, h.2⟩) fun _ _ h => h

theorem thrown_clean {x : UnixError} (hx : ¬ NotMade x) (hs : s.Has ls F) :
    Thrown ls F NotMade x s := ⟨fun h => absurd h hx, fun _ => hs⟩

theorem Owner.getFileDescriptor_eq {autoClose hasEof : Bool}
    (h : s.main = some (.backed (.fdStream fd autoClose hasEof))) (dos : DatagramOs _) :
    s.getFileDescriptor dos = fd := by
  rw [Owner.getFileDescriptor, h]
  rfl

theorem Owner.mem_fds {hasEof : Bool} (h : s.main = some (.backed (.fdStream fd true hasEof)))
    (F : Set ℤ) : fd ∈ ({fd | (fd, true) ∈ s.fds} ∪ F : Set ℤ) := by
  refine .inl ?_
  show (fd, true) ∈ s.fds
  rw [Owner.fds, h]
  exact List.mem_singleton_self _

theorem onMain_meets {α : Type} {hasEof : Bool} {f : Act (Ω × List FdEvent) UnixError α}
    (hf : Works whats fd f) (hwhats : nonBlockingWhat ∉ whats) :
    Ensures (fun s => s.main = some (.backed (.fdStream fd true hasEof)) ∧ s.Has ls F) (onOs f)
      (fun _ s => s.main = some (.backed (.fdStream fd true hasEof)) ∧ s.Has ls F)
      (Thrown ls F NotMade) := by
  have honOs := onOs_works (F := F) ls
    (P := fun s => s.main = some (.backed (.fdStream fd true hasEof))) hf
    (fun _ hs => Owner.mem_fds hs F) fun _ _ hs => hs
  refine honOs.mono (fun _ h => h) (fun _ _ h => h) fun x s hx => ?_
  exact thrown_clean (fun hmade => hwhats (hmade ▸ hx.1)) hx.2.2

/-- When the option cannot be set, the stream is given up, and its descriptor closed. -/
theorem openTCP_meets (hostname : Text) (port : ℤ) :
    Ensures (Owner.Has ls F) (openTCP os.audited hostname port) (fun _ s => s.Has ls F)
      (Thrown ls F NotMade) := by
  refine (openIPClient_meets hostname port _).bind fun _ => ?_
  refine Ensures.bind (Q := fun fd s =>
    s.main = some (.backed (.fdStream fd true true)) ∧ s.Has ls F) ?_ fun fd => ?_
  · refine Ensures.act fun s hs => ⟨?_, hs.2⟩
    obtain ⟨⟨fd, hfd⟩, -⟩ := hs
    rw [Owner.getFileDescriptor_eq hfd, hfd]
  refine (onMain_meets (works_act [] fd (os.setNodelay fd)) List.not_mem_nil).bind
    fun result => ?_
  cases result with
  | true => exact Ensures.pure fun s hs => hs.2
  | false =>
    refine Ensures.bind (Q := fun _ s => s.Has ls F) (Ensures.act fun s hs => hs.2.close)
      fun _ => ?_
    have hwhat : nodelayWhat ≠ nonBlockingWhat := by decide
    exact Ensures.within fun s hs => thrown_clean hwhat (hs.works hs.owns.holds)

theorem unixSocket_meets (whats : List Text) {socktype : ℤ}
    {f : ℤ → Act (Ω × List FdEvent) UnixError Unit} {main : ℤ → MainStream (Ω × List FdEvent)}
    {peer : ℤ → Peer} (hf : ∀ fd, Works whats fd (f fd)) (hwhats : nonBlockingWhat ∉ whats)
    (hmain : ∀ fd id (w : Heap (Ω × List FdEvent)), w.client id = none →
      (main fd).fds id w = [(fd, true)]) :
    Ensures (Owner.Has ls F)
      (do let fd ← onOs (unixSocket os.audited socktype f)
          newStream os.audited fd (main fd) (peer fd))
      (fun _ s => s.Has ls F) (Thrown ls F NotMade) := by
  have hmakes := makes_newStream (F := F) os ls main peer (unixSocket_makes os socktype hf) ?_ hmain
  · exact hmakes.mono (fun _ h => h) (fun _ s h => h.2) fun _ _ h => h
  · rw [List.mem_cons, not_or]
    exact ⟨by decide, hwhats⟩

theorem unlink_meets (path : Text) : Ensures (Owner.Has ls F)
    (onOs (act fun w => ((), os.audited.unlink path w))) (fun _ s => s.Has ls F)
    (Thrown ls F NotMade) :=
  Ensures.within fun _ hs => hs.works hs.owns.holds

theorem openUnixStreamServer_meets (path : Text) :
    Ensures (Owner.Has ls F) (openUnixStreamServer os.audited path) (fun _ s => s.Has ls F)
      (Thrown ls F NotMade) := by
  refine (unlink_meets _).bind fun _ => ?_
  refine unixSocket_meets ["failed to bind to Unix socket ".toList ++ path,
    "failed to listen to socket ".toList ++ path] (fun fd => ?_) ?_ ?_
  · exact (works_check fd (os.bind fd (sockaddrUn path)) (List.mem_cons_self ..)).bind fun _ =>
      works_check fd (os.listen fd 1) (List.mem_cons_of_mem _ (List.mem_singleton_self _))
  · simp only [List.mem_cons, List.not_mem_nil, or_false, not_or]
    exact ⟨ne_append (by decide), ne_append (by decide)⟩
  · intro fd id w hw
    show (fd, true) :: (w.client id).toList.map (fun fd => (fd, true)) = [(fd, true)]
    rw [hw]
    rfl

theorem openUnixStreamClient_meets (path : Text) :
    Ensures (Owner.Has ls F) (openUnixStreamClient os.audited path) (fun _ s => s.Has ls F)
      (Thrown ls F NotMade) := by
  refine unixSocket_meets ["failed to connect to socket ".toList ++ path]
    (fun fd => works_check fd (os.connect fd (sockaddrUn path)) (List.mem_singleton_self _)) ?_
    fun _ _ _ _ => rfl
  rw [List.mem_singleton]
  exact ne_append (by decide)

theorem openUnixDatagramServer_meets (path : Text) :
    Ensures (Owner.Has ls F) (openUnixDatagramServer os.audited path) (fun _ s => s.Has ls F)
      (Thrown ls F NotMade) := by
  refine (unlink_meets _).bind fun _ => ?_
  refine unixSocket_meets ["failed to bind to ".toList ++ path]
    (fun fd => works_check fd (os.bind fd (sockaddrUn path)) (List.mem_singleton_self _)) ?_
    fun _ _ _ _ => rfl
  rw [List.mem_singleton]
  exact ne_append (by decide)

theorem openUnixDatagramClient_meets (path : Text) :
    Ensures (Owner.Has ls F) (openUnixDatagramClient os.audited path) (fun _ s => s.Has ls F)
      (Thrown ls F NotMade) :=
  unixSocket_meets [] (fun fd => works_pure fd ()) List.not_mem_nil fun _ _ _ _ => rfl

theorem openFile_meets (path : Text) :
    Ensures (Owner.Has ls F) (openFile os.audited path) (fun _ s => s.Has ls F)
      (Thrown ls F NotMade) := by
  have hmakes := makes_newStream (F := F) os ls (fun fd => .backed (.fdStream fd true true))
    (fun _ => noPeer 0) (makes_demand os.audited.errno (os.openPath (cString path))
      (List.mem_singleton_self ("cannot open file ".toList ++ path))) ?_ fun _ _ _ _ => rfl
  · exact hmakes.mono (fun _ h => h) (fun _ s h => h.2) fun _ _ h => h
  · rw [List.mem_singleton]
    exact ne_append (by decide)

variable {fuel : Time → Socket (Ω × List FdEvent) → ℕ}

theorem openUDPServer_meets (port : ℤ) :
    Ensures (Owner.Has ls F) (openUDPServer os.audited fuel port) (fun _ s => s.Has ls F)
      (Thrown ls F NotMade) := by
  have hmakes := makes_newStream (F := F) os ls
    (fun sfd => .backed (.udpServerStream ⟨0, sfd, true, true, true, true, true⟩ fuel))
    (fun _ => noPeer UDPServerStream.sizeofSockaddr)
    (createIPServerSocket_makes os (lexicalCast port) ⟨AF_UNSPEC, SOCK_DGRAM, AI_PASSIVE⟩)
    (nonBlocking_notMem_server _) fun _ _ _ _ => rfl
  exact hmakes.mono (fun _ h => h) (fun _ s h => h.2) fun _ _ h => h

theorem openUDP_meets (os : OpenOs Ω) (fuel : Time → Socket (Ω × List FdEvent) → ℕ)
    (hostname : Text) (port : ℤ) :
    Ensures (Owner.Has ls F) (openUDP os.audited fuel hostname port) (fun _ s => s.Has ls F)
      (Thrown ls F NotMade) := by
  rw [openUDP]
  split_ifs
  · exact openUDPServer_meets port
  · exact (openIPClient_meets hostname port _).mono (fun _ h => h) (fun _ s h => h.2)
      fun _ _ h => h

/-- The errors of the server come before there is a socket; all others leave it open. -/
def ServerMade (port : ℤ) (x : UnixError) : Prop := x.what ∉ serverWhats (lexicalCast port)

theorem openUDPBidirectional_meets (call : UDPBidirectional) :
    Ensures (Owner.Has ls F) (openUDPBidirectional os.audited fuel call) (fun _ s => s.Has ls F)
      (Thrown ls F (ServerMade call.localPort)) := by
  refine Ensures.bind (Q := fun sfd s => sfd ∉ F ∧ s.Has ls (insert sfd F)) ?_ fun sfd => ?_
  · refine (onOs_makes (createIPServerSocket_makes os _ _)).mono (fun _ h => h) (fun _ _ h => h)
      fun x s hx => ?_
    exact ⟨fun hmade => absurd hx.1 hmade, fun _ => hx.2⟩
  have hstray {x : UnixError} {s : Owner (Ω × List FdEvent)} (hfd : sfd ∉ F)
      (hx : ServerMade call.localPort x) (hs : s.Has ls (insert sfd F)) :
      Thrown ls F (ServerMade call.localPort) x s := ⟨fun _ => ⟨sfd, hfd, hs⟩, fun h => absurd hx h⟩
  intro s ⟨hfd, hs⟩
  have hpeer := onOs_works ls (P := fun _ => True) (F := insert sfd F)
    (udpPeer_works os sfd call) (fun _ _ => .inr (Set.mem_insert sfd F))
    fun _ _ _ => trivial
  refine (hpeer.mono (Q := fun _ s => s.Has ls (insert sfd F))
    (R := Thrown ls F (ServerMade call.localPort)) (fun s hs => hs) (fun _ _ h => h.2)
    fun x s hx => hstray hfd (client_notMem_server hx.1) hx.2.2).bind (fun peer => ?_) s
    ⟨trivial, hs⟩
  refine (newStream_meets os ls _ true (fun _ _ _ => rfl) _ (Set.mem_insert sfd F)).mono
    (fun _ h => h) (fun _ t ht => ?_) fun x t ht => ?_
  · rw [keptFrom_insert hfd] at ht
    exact ht.2
  · refine hstray hfd (fun hmem => ?_) ht.2
    rw [ht.1] at hmem
    exact nonBlocking_notMem_server _ hmem

/-- Once the stream is made, it has the descriptor, whether it can be configured or not. -/
theorem openSerialOn_meets (os : OpenOs Ω) (hfd : fd ∉ F) (configuration : SerialConfiguration) :
    Ensures (Owner.Has ls (insert fd F)) (openSerialOn os.audited fd configuration)
      (fun _ s => s.Has ls F) (Thrown ls F NotMade) := by
  refine Ensures.bind (Q := fun _ s => s.main = some (.backed (.fdStream fd true false)) ∧
    s.Has ls F) ?_ fun _ => ?_
  · refine (newStream_meets os ls _ true (fun _ _ _ => rfl) _ (Set.mem_insert fd F)).mono
      (fun _ h => h) (fun _ t ht => ?_) fun x t ht => ?_
    · rwa [keptFrom_insert hfd] at ht
    · exact ⟨fun _ => ⟨fd, hfd, ht.2⟩, fun hx => absurd ht.1 hx⟩
  refine Ensures.bind (Q := fun fd' s => fd' = fd ∧
    s.main = some (.backed (.fdStream fd true false)) ∧ s.Has ls F) ?_ fun fd' => ?_
  · exact Ensures.act fun s hs => ⟨Owner.getFileDescriptor_eq hs.1 _, hs⟩
  rintro s ⟨rfl, hs⟩
  refine (onMain_meets (setSerialConfiguration_works os fd' configuration) ?_ s hs).mono
    (fun _ _ h => h.2) fun _ _ h => h
  decide

theorem nonBlocking_notMem_serial (device : Text) : nonBlockingWhat ∉ serialWhats device := by
  simp only [serialWhats, List.mem_cons, List.not_mem_nil, or_false, not_or]
  exact ⟨ne_append (by decide), by decide, by decide⟩

theorem openSerial_ends {device : Text} {baudrate : ℤ} {configuration : SerialConfiguration}
    {r : Except UnixError Unit} (hs : s.Has ls F)
    (h : openSerial os.audited device baudrate configuration s = .ok (r, t)) :
    EndsIn (fun _ t => t.Has ls F) (Thrown ls F NotMade) (r, t) := by
  rw [openSerial] at h
  rcases hio : openSerialIO os.audited.toSerialOs (.ofList device) baudrate s.os with
    fault | ⟨x | fd, w⟩
  · rw [hio] at h
    cases h
  · obtain ⟨hwhat, hw⟩ : Failed (serialWhats device) _ x.toUnixError w :=
      openSerialIO_holds hs.owns.holds hio
    rw [hio] at h
    cases h
    refine thrown_clean (fun hmade => ?_) (hs.works hw)
    exact nonBlocking_notMem_serial device (hmade ▸ hwhat)
  · obtain ⟨hfd, hw⟩ : fd ∉ _ ∧ Has (insert fd _) w := openSerialIO_holds hs.owns.holds hio
    obtain ⟨hfd', hs'⟩ := hs.makes hfd hw
    have hmeets := openSerialOn_meets os hfd' configuration (s.withOs w) hs'
    rw [hio] at h
    rw [← Except.ok.inj h]
    exact hmeets

def Opening.Strays : Opening → UnixError → Prop
  | .openUDPBidirectional call, x => ServerMade call.localPort x
  | .setFileDescriptor _ _ _, _ | .openTestMode, _ => False
  | _, x => NotMade x

def Opening.lent : Opening → Option ℤ
  | .setFileDescriptor fd _ _ => some fd
  | _ => none

def Opening.kept (F : Set ℤ) : Opening → Set ℤ
  | .setFileDescriptor fd autoClose _ => keptFrom F fd autoClose
  | _ => F

theorem Opening.perform_ends {o : Opening} {r : Except UnixError Unit} (hs : s.Has ls F)
    (hlent : ∀ fd ∈ o.lent, fd ∈ F) (h : o.perform os.audited fuel s = .ok (r, t)) :
    EndsIn (fun _ t => t.Has ls (o.kept F)) (Thrown ls F o.Strays) (r, t) := by
  cases o with
  | openSerial => exact openSerial_ends hs h
  | openTCP hostname port => exact Except.ok.inj h ▸ openTCP_meets hostname port s hs
  | openUDPBidirectional call => exact Except.ok.inj h ▸ openUDPBidirectional_meets call s hs
  | openUDPServer port => exact Except.ok.inj h ▸ openUDPServer_meets port s hs
  | openFile path => exact Except.ok.inj h ▸ openFile_meets path s hs
  | openUnixStreamServer path => exact Except.ok.inj h ▸ openUnixStreamServer_meets path s hs
  | openUnixStreamClient path => exact Except.ok.inj h ▸ openUnixStreamClient_meets path s hs
  | openUnixDatagramServer path => exact Except.ok.inj h ▸ openUnixDatagramServer_meets path s hs
  | openUnixDatagramClient path => exact Except.ok.inj h ▸ openUnixDatagramClient_meets path s hs
  | openTestMode => exact Except.ok.inj h ▸ hs.setTestStream _
  | setFileDescriptor fd autoClose hasEof =>
    have hmeets := newStream_meets os ls (.backed (.fdStream fd autoClose hasEof)) autoClose
      (fun _ _ _ => rfl) (noPeer 0) (hlent fd rfl) s hs
    rw [← Except.ok.inj h]
    exact hmeets.mono (fun _ _ h => h.2) fun _ _ h => ⟨fun hstrays => hstrays.elim, fun _ => h.2⟩

def Extract.onHeap (E : Extract Ω) : Extract (Heap (Ω × List FdEvent)) :=
  fun b h => ((E b h.os.1).1, h.withOs ((E b h.os.1).2, h.os.2))

/-- A call of `Driver`; `close` takes the main stream away. -/
def Owner.perform (os : DatagramOs Ω) (E : Extract (Heap Ω)) (fuel : ℕ) (s : Owner Ω)
    (op : Op (Heap Ω)) : Option (Answer × Owner Ω) :=
  ((s.toSys os).perform E fuel op).map fun r => (r.1,
    { s with
      main := match op with
        | .close => none
        | _ => s.main
      driver := r.2.driver
      world := r.2.world })

def Event.lost : Event → ℕ
  | .read _ _ answer => lostBy answer
  | .write _ _ answer => lostBy answer
  | .waitRead _ _ answer => lostBy answer
  | .waitWrite _ _ answer => lostBy answer
  | _ => 0

def lostIn (events : List Event) : ℕ := (events.map Event.lost).sum

def Owner.Tends (s : Owner (Ω × List FdEvent)) (w w' : Recorded (Heap (Ω × List FdEvent))) : Prop :=
  ∃ new, w'.trace = w.trace ++ new ∧
    Loses (lostIn new) { s with world := w }.fds { s with world := w' }.fds w.world.os.2
      w'.world.os.2

variable {w w' w'' : Recorded (Heap (Ω × List FdEvent))} {ev : Event}

theorem lostIn_append (events events' : List Event) :
    lostIn (events ++ events') = lostIn events + lostIn events' := by
  rw [lostIn, List.map_append, List.sum_append]
  rfl

theorem lostIn_singleton (ev : Event) : lostIn [ev] = ev.lost := Nat.add_zero _

theorem Owner.Tends.refl (s : Owner (Ω × List FdEvent))
    (w : Recorded (Heap (Ω × List FdEvent))) : s.Tends w w :=
  ⟨[], (List.append_nil _).symm, Loses.refl _ _⟩

theorem Owner.Tends.trans (h : s.Tends w w') (h' : s.Tends w' w'') : s.Tends w w'' := by
  obtain ⟨new, hnew, hloses⟩ := h
  obtain ⟨new', hnew', hloses'⟩ := h'
  refine ⟨new ++ new', by rw [hnew', hnew, List.append_assoc], ?_⟩
  rw [lostIn_append]
  exact hloses.trans hloses'

theorem Owner.fds_of_main {main : MainStream (Ω × List FdEvent)} (hmain : s.main = some main)
    (w : Recorded (Heap (Ω × List FdEvent))) :
    { s with world := w }.fds = main.fds s.number w.world := by
  rw [Owner.fds, hmain]

theorem Owner.tends_of_main {main : MainStream (Ω × List FdEvent)} (hmain : s.main = some main)
    (htrace : w'.trace = w.trace ++ [ev]) (h : main.Tends s.number ev.lost w.world w'.world) :
    s.Tends w w' := by
  refine ⟨[ev], htrace, ?_⟩
  rw [lostIn_singleton, Owner.fds_of_main hmain, Owner.fds_of_main hmain]
  exact h

theorem Owner.fds_of_os {o : Ω × List FdEvent} (hworld : w'.world = w.world.withOs o) :
    { s with world := w' }.fds = { s with world := w }.fds := by
  obtain ⟨w', trace⟩ := w'
  obtain rfl : w' = _ := hworld
  rfl

theorem Owner.tends_of_os {o : Ω × List FdEvent} (new : List Event)
    (htrace : w'.trace = w.trace ++ new) (hnew : lostIn new = 0)
    (hworld : w'.world = w.world.withOs o) (hlog : o.2 = w.world.os.2) : s.Tends w w' := by
  have hos : w'.world.os.2 = w.world.os.2 := by rw [hworld]; exact hlog
  refine ⟨new, htrace, ?_⟩
  rw [hnew, Owner.fds_of_os hworld, hos]
  exact Loses.refl _ _

theorem Owner.tends_keeps (os : OpenOs Ω)
    (hl : s.listeners = ls.map fun l => (l.1, l.2.logged)) (k : ℕ) :
    ((s.io os.audited.toDatagramOs).recorded k).Keeps s.Tends := by
  have hstream : ∀ st ∈ ((s.io os.audited.toDatagramOs).recorded k).stream,
      ∃ main, s.main = some main ∧
        st = (main.stream os.audited.toDatagramOs s.number).recorded k := by
    intro st hst
    obtain ⟨st', hst', rfl⟩ := Option.map_eq_some_iff.mp hst
    obtain ⟨main, hmain, rfl⟩ := Option.map_eq_some_iff.mp hst'
    exact ⟨main, hmain, rfl⟩
  refine ⟨⟨Owner.Tends.refl s, Owner.Tends.trans, fun w => ?_, fun data w => ?_,
    fun hst hr => ?_, fun hst hr => ?_⟩, fun data w => ?_, fun hst hr => ?_, fun hst hr => ?_⟩
  · exact Owner.tends_of_os [_] (o := (os.audited.now w.world.os).2) rfl rfl rfl rfl
  · apply Ports.notifyRead_rule (P := fun w' => s.Tends w w')
    · intro l hl' w' hw'
      obtain ⟨l₁, hl₁, rfl⟩ := List.mem_map.mp hl'
      obtain ⟨l₂, hl₂, rfl⟩ := List.mem_map.mp hl₁
      rw [hl] at hl₂
      obtain ⟨l₃, -, rfl⟩ := List.mem_map.mp hl₂
      exact hw'.trans (Owner.tends_of_os [_] rfl rfl rfl rfl)
    · exact .refl s w
  · obtain ⟨main, hmain, rfl⟩ := hstream _ hst
    cases hr
    refine Owner.tends_of_main hmain rfl ?_
    rw [Event.lost, lostBy_map]
    exact (main.moves s.number).read _ _
  · obtain ⟨main, hmain, rfl⟩ := hstream _ hst
    cases hr
    exact Owner.tends_of_main hmain rfl ((main.moves s.number).waitRead _ _)
  · apply Ports.notifyWrite_rule (P := fun w' => s.Tends w w')
    · intro l hl' w' hw'
      obtain ⟨l₁, hl₁, rfl⟩ := List.mem_map.mp hl'
      obtain ⟨l₂, hl₂, rfl⟩ := List.mem_map.mp hl₁
      rw [hl] at hl₂
      obtain ⟨l₃, -, rfl⟩ := List.mem_map.mp hl₂
      exact hw'.trans (Owner.tends_of_os [_] rfl rfl rfl rfl)
    · exact .refl s w
  · obtain ⟨main, hmain, rfl⟩ := hstream _ hst
    cases hr
    refine Owner.tends_of_main hmain rfl ?_
    rw [Event.lost, lostBy_map]
    exact (main.moves s.number).write _ _
  · obtain ⟨main, hmain, rfl⟩ := hstream _ hst
    cases hr
    exact Owner.tends_of_main hmain rfl ((main.moves s.number).waitWrite _ _)

theorem Owner.clear_tends (s : Owner (Ω × List FdEvent)) : s.Tends s.world
    (s.driver.clear ((s.io os.audited.toDatagramOs).recorded s.number) s.world).2 := by
  obtain ⟨_ | main, listeners, number, driver, world⟩ := s
  · exact .refl _ _
  · exact ⟨[], (List.append_nil _).symm, (main.moves number).clear world.world⟩

theorem extract_tends (E : Extract Ω) : E.onHeap.recorded.Keeps s.Tends :=
  fun _ _ => Owner.tends_of_os [] (List.append_nil _).symm rfl rfl rfl

theorem Owner.Has.perform {E : Extract Ω} {fuel : ℕ} {op : Op (Heap (Ω × List FdEvent))}
    {a : Answer} {events : List Event} (hs : s.Has ls F) (hop : ∀ st, op ≠ .setMainStream st)
    (h : s.perform os.audited.toDatagramOs E.onHeap fuel op = some (a, t))
    (hevents : t.world.trace = s.world.trace ++ events) :
    ∃ lost : List ℤ, lost.length = lostIn events ∧ lost.Nodup ∧ (∀ fd ∈ lost, fd ∉ F) ∧
      t.Has ls (F ∪ {fd | fd ∈ lost}) := by
  obtain ⟨⟨a', x⟩, hx, heq⟩ := Option.map_eq_some_iff.mp h
  cases heq
  have hkeeps := Owner.tends_keeps os hs.listeners s.number
  have hstays (htends : s.Tends s.world x.world) : ∃ lost : List ℤ,
      lost.length = lostIn events ∧ lost.Nodup ∧ (∀ fd ∈ lost, fd ∉ F) ∧
        Owner.Has ls (F ∪ {fd | fd ∈ lost}) { s with driver := x.driver, world := x.world } := by
    obtain ⟨new, hnew, hloses⟩ := htends
    obtain rfl : new = events := List.append_cancel_left (hnew.symm.trans hevents)
    obtain ⟨lost, hlength, hnodup, hapart, howns⟩ := hloses F hs.owns
    exact ⟨lost, hlength, hnodup, hapart, hs.listeners, howns⟩
  cases op with
  | readPacket =>
    obtain ⟨_, hr, -⟩ := Sys.after_eq_some hx
    exact hstays (readPacket_keeps hkeeps.toKeepsReading.hearing (extract_tends E) hr)
  | readRaw =>
    obtain ⟨_, hr, -⟩ := Sys.after_eq_some hx
    exact hstays (readRaw_keeps hkeeps.toKeepsReading.hearing hr)
  | writePacket =>
    obtain ⟨_, hr, -⟩ := Sys.after_eq_some hx
    exact hstays (writePacket_keeps hkeeps.telling.toKeepsWriting hr)
  | hasPacket =>
    obtain ⟨_, hr, -⟩ := Sys.after_eq_some hx
    exact hstays (hasPacket_keeps hkeeps.toKeepsReading.hearing (extract_tends E) hr)
  | clear =>
    cases hx
    exact hstays (s.clear_tends)
  | setMainStream st => exact absurd rfl (hop st)
  | close =>
    -- `close` deletes the stream, and asks it nothing
    cases hx
    have hnone : events = [] := List.self_eq_append_right.mp hevents
    refine ⟨[], by rw [hnone]; rfl, List.nodup_nil, by simp, ?_⟩
    have hset : F ∪ {fd | fd ∈ ([] : List ℤ)} = F := by simp
    rw [hset]
    exact hs.close
  | _ =>
    cases hx
    exact hstays (.refl s s.world)

/-- A program with a driver, and the descriptors that are open beside it. -/
structure Process (Ω : Type) where
  owner : Owner (Ω × List FdEvent)
  rest : Set ℤ

/-- What happens in the program; `events` is what a call has exchanged with the stream. -/
inductive Deed (Ω : Type)
  | op (op : Op (Heap (Ω × List FdEvent))) (events : List Event)
  | opening (o : Opening)
  | openUDP (hostname : Text) (port : ℤ)
  | openURI (uriString : Text)
  | openElsewhere (fd : ℤ)
  | closeElsewhere (fd : ℤ)

def Owner.logging (s : Owner (Ω × List FdEvent)) (ev : FdEvent) : Owner (Ω × List FdEvent) :=
  s.withOs (s.os.1, s.os.2 ++ [ev])

/-- The descriptors of the others after a call that may have given one of them to the driver. -/
def restAfter (rest : Set ℤ) (o : Option Opening) (failed : Bool) : Set ℤ :=
  match o with
  | some o => if failed then rest else o.kept rest
  | none => rest

/-- Something that happens, with the error if it is a call that opens a stream.  The caller gives
the driver only descriptors of its own, and closes none that the driver uses. -/
inductive Process.Step (os : OpenOs Ω) (E : Extract Ω)
    (fuel : Time → Socket (Ω × List FdEvent) → ℕ) :
    Process Ω → Deed Ω × Option UnixError → Process Ω → Prop
  | op {s t rest op n a events} (hop : ∀ st, op ≠ .setMainStream st)
      (h : s.perform os.audited.toDatagramOs E.onHeap n op = some (a, t))
      (hevents : t.world.trace = s.world.trace ++ events) :
      Step os E fuel ⟨s, rest⟩ (.op op events, none) ⟨t, rest⟩
  | opening {s t rest o r} (hlent : ∀ fd ∈ o.lent, fd ∈ rest)
      (h : o.perform os.audited fuel s = .ok (r, t)) :
      Step os E fuel ⟨s, rest⟩ (.opening o, unixFailure r)
        ⟨t, restAfter rest (some o) (unixFailure r).isSome⟩
  | openUDP {s t rest hostname port r}
      (h : (IodriversBase.openUDP os.audited fuel hostname port).run s = (r, t)) :
      Step os E fuel ⟨s, rest⟩ (.openUDP hostname port, unixFailure r) ⟨t, rest⟩
  | openURI {s t rest uriString r} (hlent : ∀ o ∈ askedFor uriString, ∀ fd ∈ o.lent, fd ∈ rest)
      (h : IodriversBase.openURI (opener os.audited fuel) uriString (.ok s) = (r, .ok t)) :
      Step os E fuel ⟨s, rest⟩ (.openURI uriString, openFailure r)
        ⟨t, restAfter rest (askedFor uriString) (openFailure r).isSome⟩
  | openElsewhere {s rest fd} (hfresh : isOpen fd s.os.2 = false) :
      Step os E fuel ⟨s, rest⟩ (.openElsewhere fd, none) ⟨s.logging (.opened fd), insert fd rest⟩
  | closeElsewhere {s rest fd} (hfd : fd ∈ rest) (hidle : (fd, false) ∉ s.fds) :
      Step os E fuel ⟨s, rest⟩ (.closeElsewhere fd, none) ⟨s.logging (.closed fd), rest \ {fd}⟩

/-- The program at its start. -/
def Process.start (ls : List (ℕ × IOListener Ω)) (driver : Driver) (o : Ω) : Process Ω where
  owner :=
    { main := none
      listeners := ls.map fun l => (l.1, l.2.logged)
      number := 0
      driver := driver
      world := ⟨⟨⟨.start (o, []), fun _ => noPeer 0, fun _ => none⟩, fun _ => .new⟩, []⟩ }
  rest := ∅

instance (x : UnixError) : Decidable (NotMade x) := inferInstanceAs (Decidable (_ = _))

instance (port : ℤ) (x : UnixError) : Decidable (ServerMade port x) :=
  inferInstanceAs (Decidable (¬ _ ∈ _))

instance (o : Opening) (x : UnixError) : Decidable (o.Strays x) := by
  cases o <;> unfold Opening.Strays <;> infer_instance

/-- How many descriptors a member leaves open that nobody has any more. -/
def Opening.strays (o : Opening) : Option UnixError → ℕ
  | some x => if o.Strays x then 1 else 0
  | none => 0

def Deed.strays : Deed Ω × Option UnixError → ℕ
  | (.op _ events, _) => lostIn events
  | (.opening o, failure) => o.strays failure
  | (.openUDP _ _, some x) => if NotMade x then 1 else 0
  | (.openURI uriString, failure) => ((askedFor uriString).map (·.strays failure)).getD 0
  | _ => 0

/-- The descriptors `strays` are open, and neither the driver nor the others have them. -/
structure Process.Accounts (ls : List (ℕ × IOListener Ω)) (strays : List ℤ) (p : Process Ω) :
    Prop where
  nodup : strays.Nodup
  apart : ∀ fd ∈ strays, fd ∉ p.rest
  has : p.owner.Has ls (p.rest ∪ {fd | fd ∈ strays})

section Runs

variable {E : Extract Ω} {fuel : Time → Socket (Ω × List FdEvent) → ℕ} {p p' : Process Ω}
  {strays : List ℤ} {rest : Set ℤ} {call : Deed Ω × Option UnixError}
  {calls : List (Deed Ω × Option UnixError)} {driver : Driver} {o : Ω}

theorem Owner.Has.loggingOpened (h : s.Has ls F) (hfresh : isOpen fd s.os.2 = false) :
    fd ∉ F ∧ (s.logging (.opened fd)).Has ls (insert fd F) :=
  h.makes (h.owns.holds.isOpen_eq_false.mp hfresh)
    (h.owns.holds.opened (h.owns.holds.isOpen_eq_false.mp hfresh))

theorem Owner.Has.loggingClosed (h : s.Has ls F) (hfd : fd ∈ F) (hidle : (fd, false) ∉ s.fds) :
    (s.logging (.closed fd)).Has ls (F \ {fd}) := by
  have hnot : (fd, true) ∉ s.fds := fun hmem => h.owns.closes fd hmem hfd
  refine ⟨h.listeners, (h.owns.holds.closed (.inr hfd)).congr fun fd' => ?_, h.owns.nodup,
    fun fd' hfd' hF => h.owns.closes fd' hfd' hF.1, fun fd' hfd' => ⟨h.owns.borrows fd' hfd', ?_⟩⟩
  · show fd' ∈ ({fd' | (fd', true) ∈ s.fds} ∪ F) \ {fd} ↔ (fd', true) ∈ s.fds ∨ fd' ∈ F \ {fd}
    by_cases heq : fd' = fd
    · subst heq
      simp [hnot]
    · simp [heq]
  · rintro rfl
    exact hidle hfd'

theorem Opening.kept_union {o : Opening} (hlent : ∀ fd ∈ o.lent, fd ∈ rest)
    (hapart : ∀ fd ∈ strays, fd ∉ rest) :
    o.kept (rest ∪ {fd | fd ∈ strays}) = o.kept rest ∪ {fd | fd ∈ strays} ∧
      o.kept rest ⊆ rest := by
  cases o with
  | setFileDescriptor fd autoClose hasEof =>
    cases autoClose with
    | false => exact ⟨rfl, Set.Subset.rfl⟩
    | true =>
      refine ⟨?_, Set.sdiff_subset⟩
      have hnot : fd ∉ {fd | fd ∈ strays} := fun hmem => hapart fd hmem (hlent fd rfl)
      show (rest ∪ {fd | fd ∈ strays}) \ {fd} = rest \ {fd} ∪ {fd | fd ∈ strays}
      rw [Set.union_sdiff_distrib, Set.sdiff_singleton_eq_self hnot]
  | _ => exact ⟨rfl, Set.Subset.rfl⟩

theorem Process.Accounts.returned (h : Process.Accounts ls strays ⟨s, rest⟩) {kept : Set ℤ}
    (hsub : kept ⊆ rest) (ht : t.Has ls (kept ∪ {fd | fd ∈ strays})) :
    Process.Accounts ls strays ⟨t, kept⟩ :=
  ⟨h.nodup, fun fd hfd hkept => h.apart fd hfd (hsub hkept), ht⟩

theorem Process.Accounts.joined (h : Process.Accounts ls strays ⟨s, rest⟩) {lost : List ℤ}
    (hnodup : lost.Nodup) (hapart : ∀ fd ∈ lost, fd ∉ rest ∪ {fd | fd ∈ strays})
    (ht : t.Has ls (rest ∪ {fd | fd ∈ strays} ∪ {fd | fd ∈ lost})) :
    Process.Accounts ls (lost ++ strays) ⟨t, rest⟩ := by
  refine ⟨List.nodup_append.mpr ⟨hnodup, h.nodup, fun fd hfd fd' hfd' => ?_⟩, fun fd hfd => ?_, ?_⟩
  · rintro rfl
    exact hapart fd hfd (.inr hfd')
  · rcases List.mem_append.mp hfd with hfd | hfd
    · exact fun hrest => hapart fd hfd (.inl hrest)
    · exact h.apart fd hfd
  · have hset : rest ∪ {fd | fd ∈ strays} ∪ {fd | fd ∈ lost} =
        rest ∪ {fd | fd ∈ lost ++ strays} := by
      ext fd
      simp only [Set.mem_union, Set.mem_ofPred_eq, List.mem_append]
      tauto
    rwa [hset] at ht

theorem Process.Accounts.threw (h : Process.Accounts ls strays ⟨s, rest⟩)
    {Strays : UnixError → Prop} {x : UnixError} [Decidable (Strays x)]
    (ht : Thrown ls (rest ∪ {fd | fd ∈ strays}) Strays x t) :
    ∃ lost : List ℤ, lost.length = (if Strays x then 1 else 0) ∧
      Process.Accounts ls (lost ++ strays) ⟨t, rest⟩ := by
  by_cases hx : Strays x
  · obtain ⟨fd, hfd, hhas⟩ := ht.stray hx
    refine ⟨[fd], by rw [if_pos hx]; rfl, h.joined (List.nodup_singleton fd) ?_ ?_⟩
    · simpa using hfd
    · have hset : insert fd (rest ∪ {fd | fd ∈ strays}) =
          rest ∪ {fd | fd ∈ strays} ∪ {fd' | fd' ∈ [fd]} := by
        ext fd'
        simp only [Set.mem_insert_iff, Set.mem_union, Set.mem_ofPred_eq, List.mem_singleton]
        tauto
      rwa [hset] at hhas
  · exact ⟨[], by rw [if_neg hx]; rfl, h.nodup, h.apart, ht.clean hx⟩

theorem Process.Accounts.opening (h : Process.Accounts ls strays ⟨s, rest⟩) {o : Opening}
    {r : Except UnixError Unit} (hlent : ∀ fd ∈ o.lent, fd ∈ rest)
    (hperform : o.perform os.audited fuel s = .ok (r, t)) :
    ∃ lost : List ℤ, lost.length = o.strays (unixFailure r) ∧
      Process.Accounts ls (lost ++ strays)
        ⟨t, restAfter rest (some o) (unixFailure r).isSome⟩ := by
  have hends := Opening.perform_ends h.has (fun fd hfd => .inl (hlent fd hfd)) hperform
  cases r with
  | ok =>
    obtain ⟨hunion, hsub⟩ := Opening.kept_union hlent h.apart
    have hreturned : t.Has ls (o.kept (rest ∪ {fd | fd ∈ strays})) := hends
    rw [hunion] at hreturned
    exact ⟨[], rfl, h.returned hsub hreturned⟩
  | error x => exact h.threw hends

theorem Process.Accounts.next (h : Process.Accounts ls strays p)
    (hstep : p.Step os E fuel call p') :
    ∃ lost : List ℤ, lost.length = Deed.strays call ∧
      Process.Accounts ls (lost ++ strays) p' := by
  cases hstep with
  | op hop hperform hevents =>
    obtain ⟨lost, hlength, hnodup, hapart, ht⟩ := h.has.perform hop hperform hevents
    exact ⟨lost, hlength, h.joined hnodup hapart ht⟩
  | @opening s t rest o r hlent hperform =>
    exact h.opening hlent hperform
  | @openUDP s t rest hostname port r hrun =>
    have hends := openUDP_meets os fuel hostname port s h.has
    rw [hrun] at hends
    cases r with
    | ok => exact ⟨[], rfl, h.returned Set.Subset.rfl hends⟩
    | error x => exact h.threw hends
  | @openURI s t rest uriString r hlent hopen =>
    obtain ⟨rfl, hnone, htest⟩ | ⟨o, r', hasked, hperform, rfl⟩ := openURI_performs hopen
    · -- no member was called
      have hrest : restAfter rest (askedFor uriString) (openFailure r).isSome = rest := by
        rcases ho : askedFor uriString with _ | o
        · rfl
        · rw [htest o ho, hnone]
          rfl
      have hnothing : Deed.strays ((.openURI uriString, none) : Deed Ω × Option UnixError) = 0 := by
        rcases ho : askedFor uriString with _ | o
        · simp [Deed.strays, ho]
        · simp [Deed.strays, ho, Opening.strays]
      rw [hrest, hnone]
      exact ⟨[], hnothing.symm, h⟩
    · obtain ⟨lost, hlength, haccounts⟩ := h.opening (hlent o hasked) hperform
      have hfailure : openFailure (r'.mapError .unixError) = unixFailure r' := by cases r' <;> rfl
      rw [hfailure, hasked]
      refine ⟨lost, hlength.trans ?_, haccounts⟩
      simp [Deed.strays, hasked]
  | @openElsewhere s rest fd hfresh =>
    obtain ⟨hnot, hhas⟩ := h.has.loggingOpened hfresh
    refine ⟨[], rfl, h.nodup, ?_, ?_⟩
    · rintro fd' hfd' (rfl | hrest)
      · exact hnot (.inr hfd')
      · exact h.apart fd' hfd' hrest
    · rw [Set.insert_union]
      exact hhas
  | @closeElsewhere s rest fd hfd hidle =>
    have hnot : fd ∉ {fd | fd ∈ strays} := fun hmem => h.apart fd hmem hfd
    refine ⟨[], rfl, h.nodup, fun fd' hfd' hrest => h.apart fd' hfd' hrest.1, ?_⟩
    have hhas := h.has.loggingClosed (.inl hfd) hidle
    rwa [Set.union_sdiff_distrib, Set.sdiff_singleton_eq_self hnot] at hhas

theorem Process.accounts_start (ls : List (ℕ × IOListener Ω)) (driver : Driver) (o : Ω) :
    Process.Accounts ls [] (.start ls driver o) := by
  refine ⟨List.nodup_nil, fun _ hfd => absurd hfd List.not_mem_nil, rfl, owns_nil.mpr ?_⟩
  have hempty : (∅ ∪ {fd | fd ∈ ([] : List ℤ)} : Set ℤ) = ∅ := by simp
  show Holds (∅ ∪ {fd | fd ∈ ([] : List ℤ)}) []
  rw [hempty]
  exact ⟨disciplined_nil, fun fd => by simp⟩

theorem Process.accounts_run
    (h : Lts.Run (Process.Step os E fuel) (.start ls driver o) calls p) :
    ∃ strays : List ℤ, strays.length = (calls.map Deed.strays).sum ∧
      Process.Accounts ls strays p :=
  h.history (I := fun calls p => ∃ strays : List ℤ,
      strays.length = (calls.map Deed.strays).sum ∧ Process.Accounts ls strays p)
    (fun calls p call p' ih hstep => by
      obtain ⟨strays, hlength, haccounts⟩ := ih
      obtain ⟨lost, hlost, hnext⟩ := haccounts.next hstep
      refine ⟨lost ++ strays, ?_, hnext⟩
      rw [List.length_append, hlost, hlength, List.map_append, List.sum_append]
      simp [Nat.add_comm])
    [] ⟨[], rfl, Process.accounts_start ls driver o⟩

/-- **No descriptor is closed twice or used after it was closed, and only strays are lost**: in
every run of a program that opens, uses and replaces streams, and after the driver is destroyed,
the open descriptors are those of the rest of the program, one for every opening that strayed, and
one for every client of a server whose stream could not be made. -/
theorem descriptors_of_run
    (h : Lts.Run (Process.Step os E fuel) (.start ls driver o) calls p) :
    Disciplined (p.owner.delete os.audited.toDatagramOs).os.2 ∧
      ∃ strays : List ℤ, strays.length = (calls.map Deed.strays).sum ∧ strays.Nodup ∧
        (∀ fd ∈ strays, fd ∉ p.rest) ∧
        ∀ fd, isOpen fd (p.owner.delete os.audited.toDatagramOs).os.2 = true ↔
          fd ∈ p.rest ∨ fd ∈ strays := by
  obtain ⟨strays, hlength, haccounts⟩ := Process.accounts_run h
  have hdeleted : Holds _ (p.owner.delete os.audited.toDatagramOs).os.2 := haccounts.has.delete
  exact ⟨hdeleted.disciplined, strays, hlength, haccounts.nodup, haccounts.apart, hdeleted.isOpen⟩

end Runs

/-- A file is opened, then a UDP stream to a host that is not known: its socket is lost. -/
theorem descriptors_of_run_sample : ∃ calls p,
    Lts.Run (Process.Step OpenOs.lonely (.pure driverTestExtractPacket) fun _ _ => 0)
      (.start [] (.new 100 false) 3) calls p ∧
    Disciplined (p.owner.delete OpenOs.lonely.audited.toDatagramOs).os.2 ∧
      ∃ stray, ∀ fd, isOpen fd (p.owner.delete OpenOs.lonely.audited.toDatagramOs).os.2 = true ↔
        fd = stray := by
  have hlent {o : Opening} (h : o.lent = none) : ∀ fd ∈ o.lent, fd ∈ (∅ : Set ℤ) := by
    simp [h]
  obtain ⟨s, t, hs, ht⟩ : ∃ s t, Opening.perform OpenOs.lonely.audited (fun _ _ => 0)
        (.openFile "a".toList) (Process.start [] (.new 100 false) 3).owner = .ok (.ok (), s) ∧
      Opening.perform OpenOs.lonely.audited (fun _ _ => 0)
        (.openUDPBidirectional ⟨"b".toList, 1, 0, true, false, false, false⟩) s =
          .ok (.error ⟨"cannot resolve client port 1".toList, 0⟩, t) := ⟨_, _, rfl, rfl⟩
  have hrun : Lts.Run
      (Process.Step OpenOs.lonely (.pure driverTestExtractPacket) fun _ _ => 0)
      (.start [] (.new 100 false) 3) _ ⟨t, ∅⟩ :=
    .cons (.opening (hlent rfl) hs) (.cons (.opening (hlent rfl) ht) (.nil _))
  obtain ⟨hlog, strays, hlength, -, -, hopen⟩ := descriptors_of_run hrun
  obtain ⟨stray, rfl⟩ := List.length_eq_one_iff.mp (hlength.trans (by decide))
  exact ⟨_, _, hrun, hlog, stray, fun fd => (hopen fd).trans (by simp)⟩

end IodriversBase
