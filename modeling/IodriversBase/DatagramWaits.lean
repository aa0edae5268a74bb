import IodriversBase.DatagramErrors
import IodriversBase.Deadlines

namespace IodriversBase

open Loop

variable {Ω : Type}

inductive Look
  | now (time : Time)
  | select (timeout : Timeval) (answer : SelectAnswer)
  | recvfrom (peek : Bool) (size : ℕ) (answer : Except ℕ Bytes)

/-- The system, with a log of the readings of the clock, of `select` and of `recvfrom`. -/
def DatagramOs.logLooks (os : DatagramOs Ω) : DatagramOs (Ω × List Look) where
  read fd n w := ((os.read fd n w.1).1, (os.read fd n w.1).2, w.2)
  recv fd flags n w := ((os.recv fd flags n w.1).1, (os.recv fd flags n w.1).2, w.2)
  write fd data w := ((os.write fd data w.1).1, (os.write fd data w.1).2, w.2)
  send fd flags data w := ((os.send fd flags data w.1).1, (os.send fd flags data w.1).2, w.2)
  select reads writes t w := ((os.select reads writes t w.1).1, (os.select reads writes t w.1).2,
    w.2 ++ [.select t (os.select reads writes t w.1).1])
  accept fd w := ((os.accept fd w.1).1, (os.accept fd w.1).2, w.2)
  close fd w := (os.close fd w.1, w.2)
  getFlags fd w := ((os.getFlags fd w.1).1, (os.getFlags fd w.1).2, w.2)
  setFlags fd flags w := ((os.setFlags fd flags w.1).1, (os.setFlags fd flags w.1).2, w.2)
  now w := ((os.now w.1).1, (os.now w.1).2, w.2 ++ [.now (os.now w.1).1])
  recvfrom fd n peek w := ((os.recvfrom fd n peek w.1).1, (os.recvfrom fd n peek w.1).2,
    w.2 ++ [.recvfrom peek n ((os.recvfrom fd n peek w.1).1.map fun a => a.1.val)])
  sendto fd data siOther sLen w :=
    ((os.sendto fd data siOther sLen w.1).1, (os.sendto fd data siOther sLen w.1).2, w.2)

/-- What the socket answered to a look. -/
def Look.answer : Look → Option (Except ℕ Bytes)
  | .recvfrom _ _ answer => some answer
  | _ => none

/-- The last look at the socket has found data, or an error that is not ignored. -/
def LastLookFound (u : UDPServerStream) (log : List Look) : Prop :=
  ∃ answer, (log.filterMap Look.answer).getLast? = some answer ∧
    ∀ err, answer = .error err → ¬ u.ignores err

/-- The last look at the socket came after the deadline and found an error that is ignored; then
`select` found the socket ready again. -/
def WokenLate (u : UDPServerStream) (deadline : Time) (log : List Look) : Prop :=
  ∃ before time err spec ready,
    log = before ++ [.now time, .recvfrom true 0 (.error err), .select spec (.ok ready)] ∧
      deadline < time ∧ u.ignores err ∧ 0 < ready.1.length + ready.2.length

section

variable {os : DatagramOs Ω} {u : UDPServerStream} {w w' : Socket (Ω × List Look)}
  {start deadline : Time}

theorem UDPServerStream.base_waitRead_logged {timeout : Time} {r}
    (h : (u.base os.logLooks).waitRead timeout w = (r, w')) : ∃ answer,
      w'.os.2 = w.os.2 ++ [.select (timeoutSpec timeout) answer] ∧
      (r = .ok true ↔ ∃ ready, answer = .ok ready ∧ 0 < ready.1.length + ready.2.length) := by
  obtain ⟨rfl, rfl⟩ := Prod.mk.inj h
  refine ⟨(os.select [u.fd] [] (timeoutSpec timeout) w.os.1).1, rfl, ?_⟩
  change selected _ (os.select [u.fd] [] (timeoutSpec timeout) w.os.1).1 = .ok true ↔ _
  rcases (os.select [u.fd] [] (timeoutSpec timeout) w.os.1).1 with errno | ready
  · by_cases hintr : errno = EINTR <;> simp [selected, hintr]
  · simp [selected]

/-- At the head of the loop: the wait has just begun, or the last look has found an error that is
ignored. -/
def Overlooks (u : UDPServerStream) (start : Time) (s : Time × Socket (Ω × List Look)) : Prop :=
  (s.1 = start ∧ s.2.os.2 = [.now start]) ∨ ∃ before err,
    s.2.os.2 = before ++ [.now s.1, .recvfrom true 0 (.error err)] ∧ u.ignores err

theorem lastLookFound_snoc {log : List Look} {peek : Bool} {size : ℕ} {answer : Except ℕ Bytes} :
    LastLookFound u (log ++ [.recvfrom peek size answer]) ↔
      ∀ err, answer = .error err → ¬ u.ignores err := by
  simp [LastLookFound, Look.answer]

theorem lastLookFound_select {log : List Look} {spec : Timeval} {answer : SelectAnswer} :
    LastLookFound u (log ++ [.select spec answer]) ↔ LastLookFound u log := by
  simp [LastLookFound, Look.answer]

theorem not_wokenLate_snoc {log : List Look} {peek : Bool} {size : ℕ} {answer : Except ℕ Bytes} :
    ¬ WokenLate u deadline (log ++ [.recvfrom peek size answer]) := by
  rintro ⟨before, time, err, spec, ready, h, -⟩
  have hlast := congrArg List.getLast? h
  simp at hlast

theorem wokenLate_select_iff {s : Time × Socket (Ω × List Look)} (hs : Overlooks u start s)
    (hstart : start ≤ deadline) {spec : Timeval} {answer : SelectAnswer} :
    WokenLate u deadline (s.2.os.2 ++ [.select spec answer]) ↔
      deadline < s.1 ∧ ∃ ready, answer = .ok ready ∧ 0 < ready.1.length + ready.2.length := by
  constructor
  · rintro ⟨before, time, err, spec', ready, hlog, hlate, -, hready⟩
    have hsplit : s.2.os.2 ++ [.select spec answer] =
        (before ++ [.now time, .recvfrom true 0 (.error err)]) ++ [.select spec' (.ok ready)] := by
      rw [hlog, List.append_assoc]
      rfl
    obtain ⟨hlog, hselect⟩ := List.append_inj' hsplit rfl
    obtain ⟨-, hanswer⟩ := Look.select.inj (List.head_eq_of_cons_eq hselect)
    obtain ⟨-, hs⟩ | ⟨before', err', hs, -⟩ := hs
    · rw [hs] at hlog
      have hlength := congrArg List.length hlog
      simp at hlength
    · rw [hs] at hlog
      have htime := List.head_eq_of_cons_eq (List.append_inj' hlog rfl).2
      rw [Look.now.inj htime]
      exact ⟨hlate, ready, hanswer, hready⟩
  · rintro ⟨hlate, ready, rfl, hready⟩
    obtain ⟨htime, -⟩ | ⟨before, err, hs, hignored⟩ := hs
    · exact absurd (htime ▸ hstart) (not_le.mpr hlate)
    · refine ⟨before, s.1, err, spec, ready, ?_, hlate, hignored, hready⟩
      rw [hs, List.append_assoc]
      rfl

def WaitTells (u : UDPServerStream) (deadline : Time)
    (b : Except Exn Bool × Socket (Ω × List Look)) : Prop :=
  (b.1 = .ok true → LastLookFound u b.2.os.2) ↔ ¬ WokenLate u deadline b.2.os.2

theorem waitReadIteration_tells (hstart : start ≤ deadline) {s : Time × Socket (Ω × List Look)}
    (hs : Overlooks u start s) :
    (u.waitReadIteration os.logLooks deadline s).Holds (Overlooks u start)
      (WaitTells u deadline) := by
  rw [UDPServerStream.waitReadIteration]
  by_cases hlate : s.1 ≤ deadline
  · rw [if_pos hlate]
    rcases hwait : (u.base os.logLooks).waitRead (deadline - s.1) s.2 with ⟨r, w₁⟩
    obtain ⟨answer, hlog, hready⟩ := UDPServerStream.base_waitRead_logged hwait
    have hnotWoken : ¬ WokenLate u deadline w₁.os.2 := by
      rw [hlog, wokenLate_select_iff hs hstart]
      exact fun h => absurd hlate (not_le.mpr h.1)
    rcases r with x | _ | _
    · exact iff_of_true (fun h => by cases h) hnotWoken
    · exact iff_of_true (fun h => by cases h) hnotWoken
    -- the clock is read, and the socket is looked at
    dsimp only
    rw [Socket.recvfrom]
    dsimp only [DatagramOs.logLooks, Socket.withMachine, Machine.withOs]
    rcases os.recvfrom u.fd 0 true _ with ⟨err | a, o⟩
    · dsimp only
      by_cases hignored : u.ignores err
      · rw [if_pos hignored]
        exact .inr ⟨w₁.os.2, err, by simp [Except.map], hignored⟩
      · rw [if_neg hignored]
        refine iff_of_true (fun _ => ?_) not_wokenLate_snoc
        rw [lastLookFound_snoc]
        rintro err' ⟨⟩
        exact hignored
    · refine iff_of_true (fun _ => ?_) not_wokenLate_snoc
      rw [lastLookFound_snoc]
      exact fun _ h => by cases h
  · rw [if_neg hlate]
    rcases hwait : (u.base os.logLooks).waitRead 0 s.2 with ⟨r, w₁⟩
    obtain ⟨answer, hlog, hready⟩ := UDPServerStream.base_waitRead_logged hwait
    obtain ⟨htime, -⟩ | ⟨before, err, hlooked, hignored⟩ := id hs
    · exact absurd (htime ▸ hstart) hlate
    have hnotFound : ¬ LastLookFound u w₁.os.2 := by
      rw [hlog, lastLookFound_select, hlooked, List.append_cons, lastLookFound_snoc]
      exact fun h => h err rfl hignored
    rw [Next.holds_done, WaitTells, hlog, wokenLate_select_iff hs hstart, ← hready, ← hlog]
    simp [hnotFound, not_le.mp hlate]

/-- A wait that answers true has found data or an error that is not ignored, unless it was woken
late. -/
theorem udp_waitRead_tells_iff {fuel : ℕ} {timeout : Time} (htimeout : 0 ≤ timeout) {ω : Ω}
    (hlog : w.os = (ω, [])) (hclean : w.waitReadError = 0) {r}
    (h : u.waitRead os.logLooks fuel timeout w = some (r, w')) :
    (r = .ok true → LastLookFound u w'.os.2) ↔
      ¬ WokenLate u ((os.now ω).1 + timeout) w'.os.2 := by
  rw [UDPServerStream.waitRead, if_neg (not_not.mpr hclean)] at h
  have hstart : (os.now ω).1 ≤ (os.now ω).1 + timeout := le_add_of_nonneg_right htimeout
  have hnow : (os.logLooks.now w.os).1 = (os.now ω).1 := by
    rw [hlog]
    rfl
  rw [hnow] at h
  refine run_rule (I := Overlooks u (os.now ω).1) (Q := WaitTells u ((os.now ω).1 + timeout))
    (fun s hs => waitReadIteration_tells hstart hs) (.inl ⟨rfl, ?_⟩) h
  simp [Socket.withMachine, Machine.withOs, DatagramOs.logLooks, hlog]

end

abbrev SocketSchedule := Time × List (Time × Except ℕ Bytes)

/-- `select` sleeps until there is something; a look takes an error away, and leaves data there. -/
def SocketSchedule.os : DatagramOs SocketSchedule where
  read _ _ w := (.error EAGAIN, w)
  recv _ _ _ w := (.error EAGAIN, w)
  write _ data w := (.ok (wroteAll data), w)
  send _ _ data w := (.ok (wroteAll data), w)
  select reads _ _ w :=
    match w.2 with
    | [] => (.ok ([], []), w)
    | (time, _) :: _ => (.ok (reads, []), (max w.1 time, w.2))
  accept _ w := (.error EAGAIN, w)
  close _ w := w
  getFlags _ w := (O_NONBLOCK, w)
  setFlags _ _ w := (.ok (), w)
  now w := (w.1, w)
  recvfrom _ n peek w :=
    match w.2 with
    | [] => (.error EAGAIN, w)
    | (_, .error err) :: rest => (.error err, (w.1, rest))
    | (_, .ok data) :: rest => (.ok (⟨data.take n, List.length_take_le n data⟩, []),
      if peek then w else (w.1, rest))
  sendto _ data _ _ w := (.ok (wroteAll data), w)

/-- A stream as it is built: every error that can be ignored is. -/
def ignoringUdp : UDPServerStream := ⟨0, 5, true, true, true, true, true⟩

/-- A refused connection, and a datagram behind it. -/
theorem udp_waitRead_tells_iff_sample : ∃ (r : Except Exn Bool) (w' : Socket _),
    ignoringUdp.waitRead SocketSchedule.os.logLooks 5 10
      (.unconnected ((0, [(5, .error ECONNREFUSED), (7, .ok [1])]), []) 16) = some (r, w') ∧
    ((r = .ok true → LastLookFound ignoringUdp w'.os.2) ↔
      ¬ WokenLate ignoringUdp (0 + 10) w'.os.2) := by
  have hcall : ∃ r, ignoringUdp.waitRead SocketSchedule.os.logLooks 5 10
      (.unconnected ((0, [(5, .error ECONNREFUSED), (7, .ok [1])]), []) 16) = some r := ⟨_, rfl⟩
  obtain ⟨⟨r, w'⟩, hcall⟩ := hcall
  have htells := udp_waitRead_tells_iff (by decide) rfl rfl hcall
  exact ⟨r, w', hcall, htells⟩

/-- Refused connections only; the second one is looked at behind the deadline, and the third one
makes the socket ready. -/
theorem udp_waitRead_ignored : ∃ w' : Socket _,
    ignoringUdp.waitRead SocketSchedule.os.logLooks 5 10
      (.unconnected ((0, [(5, .error ECONNREFUSED), (11, .error ECONNREFUSED),
        (12, .error ECONNREFUSED)]), []) 16) = some (.ok true, w') ∧
    ¬ LastLookFound ignoringUdp w'.os.2 := by
  refine ⟨_, rfl, ?_⟩
  rintro ⟨answer, hlast, hnot⟩
  cases hlast
  exact hnot ECONNREFUSED rfl (by decide)

end IodriversBase
