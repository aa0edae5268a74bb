import IodriversBase.Datagrams
import IodriversBase.Samples

namespace IodriversBase

open Loop

variable {Ω : Type} {os : DatagramOs Ω} {u : UDPServerStream} {w w' : Socket Ω}

/-- A look at the socket that failed. -/
def RecvCall.refused (err : ℕ) : RecvCall := ⟨true, 0, .error err⟩

/-- How a wait without a recorded error ends, by its looks at the socket: only ignored errors,
then perhaps one of another kind, or a datagram. -/
inductive WaitEnd (u : UDPServerStream) (w : Socket Ω) : Except Exn Bool → Socket Ω → Prop
  | silent {r : Except Exn Bool} {w' : Socket Ω} (errs : List ℕ) : (∀ err ∈ errs, u.ignores err) →
      w'.recvs = w.recvs ++ errs.map .refused → w'.waitReadError = 0 → WaitEnd u w r w'
  | error {w' : Socket Ω} (errs : List ℕ) (err : ℕ) : (∀ err ∈ errs, u.ignores err) →
      ¬ u.ignores err → w'.recvs = w.recvs ++ (errs ++ [err]).map .refused →
      w'.waitReadError = err → WaitEnd u w (.ok true) w'
  | datagram {w' : Socket Ω} (errs : List ℕ) (data : Bytes) : (∀ err ∈ errs, u.ignores err) →
      w'.recvs = w.recvs ++ errs.map .refused ++ [⟨true, 0, .ok data⟩] → w'.waitReadError = 0 →
      WaitEnd u w (.ok true) w'

theorem UDPServerStream.base_waitRead {timeout : Time} {r}
    (h : (u.base os).waitRead timeout w = (r, w')) :
    w'.recvs = w.recvs ∧ w'.waitReadError = w.waitReadError := by
  obtain ⟨_, rfl⟩ := Prod.mk.inj h
  exact ⟨rfl, rfl⟩

theorem UDPServerStream.waitRead_end (hclean : w.waitReadError = 0) {fuel : ℕ} {timeout : Time} {r}
    (h : u.waitRead os fuel timeout w = some (r, w')) : WaitEnd u w r w' := by
  rw [waitRead, if_neg (not_not.mpr hclean)] at h
  -- so far, only errors that are ignored
  let I : Time × Socket Ω → Prop := fun s => s.2.waitReadError = 0 ∧
    ∃ errs : List ℕ, (∀ err ∈ errs, u.ignores err) ∧ s.2.recvs = w.recvs ++ errs.map .refused
  -- every turn of the loop has met an error that is ignored
  refine run_rule (I := I) (Q := fun b => WaitEnd u w b.1 b.2) ?_
    ⟨hclean, [], by simp, by simp [Socket.withMachine]⟩ h
  rintro ⟨now, s⟩ ⟨hclean, errs, herrs, hrecvs⟩
  rw [waitReadIteration]
  by_cases hlate : now ≤ (os.now w.os).1 + timeout
  swap
  · rw [if_neg hlate]
    exact .silent errs herrs hrecvs hclean
  rw [if_pos hlate]
  dsimp only
  rcases hwait : (u.base os).waitRead ((os.now w.os).1 + timeout - now) s with ⟨x | _ | _, s₁⟩
  all_goals
    obtain ⟨hrecvs₁, hclean₁⟩ := base_waitRead hwait
    rw [hrecvs] at hrecvs₁
    rw [hclean] at hclean₁
  · exact .silent errs herrs hrecvs₁ hclean₁
  · exact .silent errs herrs hrecvs₁ hclean₁
  dsimp only
  rw [Socket.recvfrom]
  rcases os.recvfrom u.fd 0 true _ with ⟨err | ⟨data, address⟩, o⟩
  · dsimp only
    by_cases hignored : u.ignores err
    · rw [if_pos hignored]
      refine ⟨hclean₁, errs ++ [err], ?_, ?_⟩
      · simpa [or_imp, forall_and] using ⟨herrs, hignored⟩
      · simp [Socket.withMachine, hrecvs₁, RecvCall.refused, Except.map]
    · rw [if_neg hignored]
      refine .error errs err herrs hignored ?_ rfl
      simp [Socket.withMachine, hrecvs₁, RecvCall.refused, Except.map]
  · refine .datagram errs data.val herrs ?_ rfl
    simp [Socket.withMachine, hrecvs₁, Except.map]

/-- The error that a call threw. -/
def Reports {α : Type} (r : Except Exn α) (err : ℕ) : Prop :=
  ∃ what, r = .error (.unixError what err)

theorem reports_iff {α : Type} {what : String} {err err' : ℕ} :
    Reports (.error (.unixError what err) : Except Exn α) err' ↔ err = err' := by
  constructor
  · rintro ⟨_, h⟩
    cases h
    rfl
  · rintro rfl
    exact ⟨what, rfl⟩

theorem not_reports_ok {α : Type} (a : α) (err : ℕ) : ¬ Reports (.ok a) err := by
  rintro ⟨_, h⟩
  cases h

theorem UDPServerStream.read_recorded (h : w.waitReadError ≠ 0) (n : ℕ) : u.read os n w =
    (.error (.unixError "readPacket(): error reading the file descriptor" w.waitReadError),
      { w with waitReadError := 0 }) := by
  rw [read, if_pos h]

theorem UDPServerStream.read_refused (hclean : w.waitReadError = 0) {n err : ℕ}
    (h : (os.recvfrom u.fd n false w.os).1 = .error err) (err' : ℕ) :
    Reports (u.read os n w).1 err' ↔ err = err' ∧ err ≠ EAGAIN ∧ ¬ u.ignores err := by
  rw [read, if_neg (not_not.mpr hclean), Socket.recvfrom]
  rcases hr : os.recvfrom u.fd n false w.os with ⟨err₁ | a, o⟩ <;> rw [hr] at h <;> cases h
  dsimp only
  by_cases hagain : err = EAGAIN
  · rw [if_pos hagain]
    simp [not_reports_ok, hagain]
  rw [if_neg hagain]
  by_cases hignored : u.ignores err
  · rw [if_pos hignored]
    simp [not_reports_ok, hignored]
  · rw [if_neg hignored, reports_iff]
    simp [hagain, hignored]

/-- No error that is ignored, and not `EAGAIN`, comes out of a read without a recorded error. -/
theorem UDPServerStream.read_clean (hclean : w.waitReadError = 0) {n err : ℕ}
    (h : Reports (u.read os n w).1 err) : err ≠ EAGAIN ∧ ¬ u.ignores err := by
  rcases hr : (os.recvfrom u.fd n false w.os).1 with err₁ | a
  · obtain ⟨rfl, hkind⟩ := (read_refused hclean hr err).mp h
    exact hkind
  · rw [read, if_neg (not_not.mpr hclean), Socket.recvfrom] at h
    rcases hcall : os.recvfrom u.fd n false w.os with ⟨_ | a₁, o⟩ <;> rw [hcall] at hr h <;>
      cases hr
    exact absurd h (not_reports_ok _ _)

theorem UDPServerStream.read_ignored {n err : ℕ} (hignored : u.ignores err)
    (hrecorded : ¬ u.ignores w.waitReadError ∨ w.waitReadError = 0) :
    ¬ Reports (u.read os n w).1 err := by
  by_cases hclean : w.waitReadError = 0
  · exact fun h => (u.read_clean hclean h).2 hignored
  · rw [read_recorded hclean, reports_iff]
    rintro rfl
    exact hrecorded.elim (absurd hignored) hclean

theorem ignores_eagain (u : UDPServerStream) : ¬ u.ignores EAGAIN := by
  simp [UDPServerStream.ignores, EAGAIN, ECONNREFUSED, EHOSTUNREACH, ENETUNREACH]

/-- **Waiting and reading** disagree on `EAGAIN`, and on nothing else: what a wait has seen fail
with `err` is reported by the read behind it if and only if a read that fails with `err` reports
it, unless `err` is `EAGAIN`. -/
theorem udp_errors_agree_iff {fuel n n₀ err : ℕ} {timeout : Time} {r} {w₀ : Socket Ω}
    (hclean : w.waitReadError = 0) (hwait : u.waitRead os fuel timeout w = some (r, w'))
    (hpeek : .refused err ∈ w'.recvs.drop w.recvs.length) (herr : err ≠ 0)
    (hclean₀ : w₀.waitReadError = 0) (hread : (os.recvfrom u.fd n₀ false w₀.os).1 = .error err) :
    (Reports (u.read os n w').1 err ↔ Reports (u.read os n₀ w₀).1 err) ↔ err ≠ EAGAIN := by
  rw [UDPServerStream.read_refused hclean₀ hread]
  have hinj : Function.Injective RecvCall.refused := by
    intro a b h
    injection h with _ _ h
    injection h
  -- ignored by the wait, and by both reads
  have hsilent : u.ignores err → ¬ u.ignores w'.waitReadError ∨ w'.waitReadError = 0 →
      ((Reports (u.read os n w').1 err ↔ err = err ∧ err ≠ EAGAIN ∧ ¬ u.ignores err) ↔
        err ≠ EAGAIN) := by
    intro hignored hrecorded
    have hne : err ≠ EAGAIN := fun h => ignores_eagain u (h ▸ hignored)
    simp [u.read_ignored hignored hrecorded, hignored, hne]
  cases u.waitRead_end hclean hwait with
  | silent errs herrs hrecvs hclean' =>
    rw [hrecvs, List.drop_left, List.mem_map_of_injective hinj] at hpeek
    exact hsilent (herrs err hpeek) (.inr hclean')
  | datagram errs data herrs hrecvs hclean' =>
    rw [hrecvs, List.append_assoc, List.drop_left, List.mem_append, List.mem_map_of_injective hinj]
      at hpeek
    refine hsilent (herrs err (hpeek.resolve_right fun h => ?_)) (.inr hclean')
    simp [RecvCall.refused] at h
  | error errs err' herrs hkind hrecvs herror =>
    rw [hrecvs, List.drop_left, List.mem_map_of_injective hinj, List.mem_append,
      List.mem_singleton] at hpeek
    rcases hpeek with hpeek | rfl
    · exact hsilent (herrs err hpeek) (.inl (herror ▸ hkind))
    · have hreports : Reports (u.read os n w').1 err := by
        rw [u.read_recorded (by rw [herror]; exact herr), reports_iff, herror]
      simp [hreports, hkind]

/-- The sockets of the samples, which ignore nothing. -/
def sampleUdp : UDPServerStream := ⟨0, 5, true, true, false, false, false⟩

/-- A refused connection is reported either way. -/
theorem udp_errors_agree_iff_sample : ∃ r w',
    sampleUdp.waitRead SocketScript.os 2 0 (.unconnected ⟨[.error ECONNREFUSED], []⟩ 16) =
      some (r, w') ∧
    (Reports (sampleUdp.read SocketScript.os 10 w').1 ECONNREFUSED ↔
      Reports (sampleUdp.read SocketScript.os 10
        (.unconnected ⟨[.error ECONNREFUSED], []⟩ 16)).1 ECONNREFUSED) := by
  obtain ⟨⟨r, w'⟩, hwait, hpeek⟩ := exists_of_any
    (x := sampleUdp.waitRead SocketScript.os 2 0 (.unconnected ⟨[.error ECONNREFUSED], []⟩ 16))
    (fun r => .refused ECONNREFUSED ∈ r.2.recvs.drop 0) (by decide)
  exact ⟨r, w', hwait, (udp_errors_agree_iff rfl hwait hpeek (by decide) rfl rfl).mpr (by decide)⟩

/-- The ports of a driver over the sample socket. -/
def SocketScript.ports : Ports (Socket SocketScript) :=
  SocketScript.os.socketPorts (some (sampleUdp.stream SocketScript.os fun _ _ => 5)) []

/-- A wake-up for nothing is an exception behind a wait, also in `readPacket`, and no data
without one. -/
theorem udp_errors_disagree : (∃ w' : Socket SocketScript,
    sampleUdp.waitRead SocketScript.os 2 0 (.unconnected ⟨[.error EAGAIN], []⟩ 16) =
      some (.ok true, w') ∧ Reports (sampleUdp.read SocketScript.os 10 w').1 EAGAIN) ∧
    ¬ Reports (sampleUdp.read SocketScript.os 10
      (.unconnected ⟨[.error EAGAIN], []⟩ 16)).1 EAGAIN ∧
    ∃ d w', (Driver.new 100 false).readPacket (.pure driverTestExtractPacket) SocketScript.ports 5
      100 1000 1000 (.unconnected ⟨[.error EAGAIN, .error EAGAIN], []⟩ 16) = some (.error
        (.unixError "readPacket(): error reading the file descriptor" EAGAIN), d, w') := by
  refine ⟨?_, ?_, ?_⟩
  · obtain ⟨⟨r, w'⟩, hwait, hr, herror⟩ := exists_of_any
      (x := sampleUdp.waitRead SocketScript.os 2 0 (.unconnected ⟨[.error EAGAIN], []⟩ 16))
      (fun r => r.1 = .ok true ∧ (sampleUdp.read SocketScript.os 10 r.2).1 = .error (.unixError
        "readPacket(): error reading the file descriptor" EAGAIN)) (by decide)
    dsimp only at hr
    subst hr
    exact ⟨w', hwait, _, herror⟩
  · exact not_reports_ok _ _
  · obtain ⟨⟨r, d, w'⟩, hread, hr⟩ := exists_of_any
      (x := (Driver.new 100 false).readPacket (.pure driverTestExtractPacket) SocketScript.ports 5
        100 1000 1000 (.unconnected ⟨[.error EAGAIN, .error EAGAIN], []⟩ 16))
      (fun r => r.1 = .error (.unixError
        "readPacket(): error reading the file descriptor" EAGAIN)) (by decide +kernel)
    dsimp only at hr
    subst hr
    exact ⟨d, w', hread⟩

end IodriversBase
