import Z2wRpc.Session.Hangups
import Z2wRpc.Session.Segmentation

/-!
# What a peer can do to the server

The assertion in `rpc_handle` is about bytes that the peer has announced but
need not deliver, `rpc_process` runs on whatever text the peer has put a checksum
on, and the replies go to a peer that need not be there any more.  The loop is
left in good order exactly when the peer delivers what it announces, and only
requests that are answered, and stays for the answers.
-/

namespace Z2wRpc

open Foundation

namespace Session

open Call Dispatch Wire Program

/-!
## Cooperation
-/

def HasBuffer (mallocs : List Bool) : Prop :=
  mallocs.head? ≠ some false

def Stays (hangups : List Bool) : Prop :=
  true ∉ hangups.take 2

/--
A peer that delivers every payload it announces, until it stops or sends a
payload with a wrong checksum, whose requests are all accepted, and that stays
for the answers.
-/
inductive Cooperative (accepts : CString -> Prop) :
    List NetEvent -> List Bool -> List Bool -> Prop where
  | silent {events : List NetEvent} {mallocs hangups : List Bool}
      (stop : Silent events) : Cooperative accepts events mallocs hangups
  | noMemory {events rest : List NetEvent} {mallocs hangups : List Bool}
      {h : List Byte} (announced : Announced events h rest)
      (tail : Cooperative accepts rest mallocs hangups) :
      Cooperative accepts events (false :: mallocs) hangups
  | damaged {events rest : List NetEvent} {mallocs hangups : List Bool}
      {h payload : List Byte} (buffer : HasBuffer mallocs)
      (delivered : Delivered events h payload rest)
      (crc : headerCrc h ≠ calcCrc32 payload) :
      Cooperative accepts events mallocs hangups
  | answered {events rest : List NetEvent} {mallocs hangups : List Bool}
      {h payload : List Byte} (buffer : HasBuffer mallocs)
      (delivered : Delivered events h payload rest)
      (crc : headerCrc h = calcCrc32 payload)
      (accepted : accepts (CString.ofBytes payload))
      (stays : Stays hangups)
      (tail : Cooperative accepts rest mallocs.tail (hangups.drop 2)) :
      Cooperative accepts events mallocs hangups

theorem allocate_eq_true_iff (w : World) :
    w.allocate.1 = true <-> HasBuffer w.mallocs := by
  unfold World.allocate HasBuffer
  cases w.mallocs with
  | nil => simp
  | cons ok rest => simp

/-!
## One round
-/

def Finishes (table : List RpcFunc) (fd : Int) (hangups : List Bool)
    (w : World) : Prop :=
  (serveTo table fd hangups w).1 = .ok () ∧
    fd ∉ (serveTo table fd hangups w).2.2.openFds

section

variable {table : List RpcFunc} {fd : Int} {w : World}
  {events rest : List NetEvent} {mallocs hangups : List Bool}
  {h payload : List Byte}

theorem allocate_of_buffer (hbuffer : HasBuffer w.mallocs) :
    w.allocate.1 = true :=
  (allocate_eq_true_iff w).mpr hbuffer

theorem finishes_of_stop {w' : World} (hfds : w.openFds = [fd])
    (hfds' : w'.openFds = [fd])
    (hsends : sendCount (served table)
      (reception w.allocate.1 w.incoming).1 = 0)
    (hround : exec (network (served table)) (rpcHandleRound fd) w =
      (.ok false, w')) : Finishes table fd hangups w := by
  rcases @serveTo_stop table fd w w' hangups (by simp [hfds]) hround
    (by simp [hsends]) with ⟨script, hstop⟩
  rw [Finishes, hstop]
  constructor
  · rfl
  · simp [hfds']

theorem not_finishes_of_error {w' : World} {e : Fault}
    (hround : exec (network (served table)) (rpcHandleRound fd) w =
      (.error e, w')) : ¬ Finishes table fd hangups w := by
  intro hfinishes
  rcases @serveTo_error table fd w w' hangups e hround with ⟨e', herror⟩
  rw [Finishes, herror] at hfinishes
  cases hfinishes.left

theorem finishes_of_silent (hfds : w.openFds = [fd])
    (hsilent : Silent w.incoming) : Finishes table fd hangups w := by
  have hopen : fd ∈ w.openFds := by simp [hfds]
  have hended := reception_of_silent hsilent w.allocate.1
  have hround := @exec_rpcHandleRound (served table) fd w hopen
  rw [hended] at hround
  apply finishes_of_stop hfds ?_ (by rw [hended]; rfl) hround
  rw [received_openFds, hfds]

theorem finishes_noMemory_iff (hfds : w.openFds = [fd])
    (hmallocs : w.mallocs = false :: mallocs)
    (hannounced : Announced w.incoming h rest) :
    exists w', w'.openFds = [fd] ∧ w'.incoming = rest ∧
      w'.mallocs = mallocs ∧
      (Finishes table fd hangups w <-> Finishes table fd hangups w') := by
  have hopen : fd ∈ w.openFds := by simp [hfds]
  have hallocate : w.allocate.1 = false := by
    unfold World.allocate
    rw [hmallocs]
  have hreception := reception_of_announced hannounced
  have hround := @exec_rpcHandleRound (served table) fd w hopen
  rw [hallocate, hreception] at hround
  refine ⟨w.received, ?_, ?_, ?_, ?_⟩
  · rw [received_openFds, hfds]
  · rw [received_incoming, hallocate, hreception]
  · rw [received_mallocs (by rw [hallocate, hreception]; simp), hmallocs]
    rfl
  · have hagain := @serveTo_again table fd w _ hangups hopen hround
      (by simp [hallocate, hreception, sendCount])
    simp only [hallocate, hreception, sendCount, List.drop_zero] at hagain
    rw [Finishes, Finishes, hagain]

theorem finishes_of_damaged (hfds : w.openFds = [fd])
    (hbuffer : HasBuffer w.mallocs)
    (hdelivered : Delivered w.incoming h payload rest)
    (hcrc : headerCrc h ≠ calcCrc32 payload) :
    Finishes table fd hangups w := by
  have hopen : fd ∈ w.openFds := by simp [hfds]
  have hdamaged : reception w.allocate.1 w.incoming = (.damaged, rest) := by
    rw [allocate_of_buffer hbuffer, reception_of_delivered hdelivered,
      if_neg hcrc]
  have hround := @exec_rpcHandleRound (served table) fd w hopen
  rw [hdamaged] at hround
  apply finishes_of_stop hfds ?_ (by rw [hdamaged]; rfl) hround
  rw [received_openFds, hfds]

theorem not_finishes_of_torn (hfds : w.openFds = [fd])
    (hbuffer : HasBuffer w.mallocs)
    (htorn : (reception true w.incoming).1 = .torn) :
    ¬ Finishes table fd hangups w := by
  have hopen : fd ∈ w.openFds := by simp [hfds]
  have hround := @exec_rpcHandleRound (served table) fd w hopen
  rw [allocate_of_buffer hbuffer, htorn] at hround
  exact not_finishes_of_error hround

theorem finishes_answered_iff (hfds : w.openFds = [fd])
    (hbuffer : HasBuffer w.mallocs)
    (hdelivered : Delivered w.incoming h payload rest)
    (hcrc : headerCrc h = calcCrc32 payload)
    (hanswer : Answerable table (CString.ofBytes payload)) :
    exists w', w'.openFds = [fd] ∧ w'.incoming = rest ∧
      w'.mallocs = w.mallocs.tail ∧
      (Finishes table fd hangups w <-> Stays hangups ∧
        Finishes table fd (hangups.drop 2) w') := by
  have hopen : fd ∈ w.openFds := by simp [hfds]
  have hreception := reception_of_delivered hdelivered
  rw [if_pos hcrc, ← allocate_of_buffer hbuffer] at hreception
  rcases exec_rpcHandleRound_answered hopen hreception hanswer with
    ⟨reply, w', hreply, hround, hincoming, hfds', hmallocs, _⟩
  have hsends : sendCount (served table)
      (reception w.allocate.1 w.incoming).1 = 2 := by
    rw [hreception, sendCount]
    simp only [served, hreply]
  refine ⟨w', hfds'.trans hfds, hincoming, hmallocs, ?_⟩
  by_cases hstays : Stays hangups
  · have hagain := @serveTo_again table fd w w' hangups hopen hround (by
      rw [hsends]
      exact hstays)
    rw [hsends] at hagain
    rw [and_iff_right hstays, Finishes, Finishes, hagain]
  · have hsignal := @serveTo_signal table fd w hangups hopen (by
      rw [hsends]
      exact not_not.mp hstays)
    constructor
    · intro hfinishes
      rw [Finishes, hsignal] at hfinishes
      cases hfinishes.left
    · intro hboth
      exact absurd hboth.left hstays

theorem exists_error_of_payload {s : CString} (hopen : fd ∈ w.openFds)
    (hreception : reception w.allocate.1 w.incoming = (.payload s, rest))
    (hanswer : ¬ Answerable table s) :
    exists e w', exec (network (served table)) (rpcHandleRound fd) w =
      (.error e, w') := by
  have hround := @exec_rpcHandleRound (served table) fd w hopen
  rw [hreception] at hround
  rw [answerable_iff] at hanswer
  simp only [served] at hround
  cases hresult : (rpcProcess table (some s)).result with
  | error e =>
      rw [hresult] at hround
      exact ⟨_, _, hround⟩
  | ok response =>
      rw [hresult] at hround
      cases response with
      | none => exact ⟨_, _, hround⟩
      | some reply => exact absurd ⟨reply, hresult⟩ hanswer

theorem exists_error_of_not_answerable (hopen : fd ∈ w.openFds)
    (hbuffer : HasBuffer w.mallocs)
    (hdelivered : Delivered w.incoming h payload rest)
    (hcrc : headerCrc h = calcCrc32 payload)
    (hanswer : ¬ Answerable table (CString.ofBytes payload)) :
    exists e w', exec (network (served table)) (rpcHandleRound fd) w =
      (.error e, w') := by
  have hreception : reception w.allocate.1 w.incoming =
      (.payload (CString.ofBytes payload), rest) := by
    rw [allocate_of_buffer hbuffer, reception_of_delivered hdelivered,
      if_pos hcrc]
  exact exists_error_of_payload hopen hreception hanswer

theorem not_finishes_of_not_answerable (hfds : w.openFds = [fd])
    (hbuffer : HasBuffer w.mallocs)
    (hdelivered : Delivered w.incoming h payload rest)
    (hcrc : headerCrc h = calcCrc32 payload)
    (hanswer : ¬ Answerable table (CString.ofBytes payload)) :
    ¬ Finishes table fd hangups w := by
  have hopen : fd ∈ w.openFds := by simp [hfds]
  rcases exists_error_of_not_answerable hopen hbuffer hdelivered hcrc hanswer
    with ⟨e, w', hround⟩
  exact not_finishes_of_error hround

/-!
## Whole runs
-/

theorem finishes_of_cooperative
    {accepts : CString -> Prop}
    (hcooperative : Cooperative accepts events mallocs hangups)
    (haccepts : forall text, accepts text -> Answerable table text)
    (hfds : w.openFds = [fd]) (hincoming : w.incoming = events)
    (hmallocs : w.mallocs = mallocs) : Finishes table fd hangups w := by
  induction hcooperative generalizing w with
  | silent stop =>
      apply finishes_of_silent hfds
      rw [hincoming]
      exact stop
  | noMemory announced tail ih =>
      rw [← hincoming] at announced
      rcases finishes_noMemory_iff hfds hmallocs announced with
        ⟨w', hfds', hincoming', hmallocs', hiff⟩
      exact hiff.mpr (ih hfds' hincoming' hmallocs')
  | damaged buffer delivered crc =>
      rw [← hincoming] at delivered
      rw [← hmallocs] at buffer
      exact finishes_of_damaged hfds buffer delivered crc
  | answered buffer delivered crc accepted stays tail ih =>
      rw [← hincoming] at delivered
      rw [← hmallocs] at buffer
      rcases finishes_answered_iff hfds buffer delivered crc
        (haccepts _ accepted) with
        ⟨w', hfds', hincoming', hmallocs', hiff⟩
      rw [hmallocs] at hmallocs'
      exact hiff.mpr ⟨stays, ih hfds' hincoming' hmallocs'⟩

theorem cooperative_of_finishes (hfds : w.openFds = [fd])
    (hfinishes : Finishes table fd hangups w) :
    Cooperative (Answerable table) w.incoming w.mallocs hangups := by
  -- the rounds use the input up
  induction hn : weight w.incoming using Nat.strong_induction_on
    generalizing w hangups with
  | h n ih =>
      rcases delivery_cases w.incoming with
        hsilent | ⟨header, mid, hannounced, hcases⟩
      · exact Cooperative.silent hsilent
      · by_cases hbuffer : HasBuffer w.mallocs
        · rcases hcases with htorn | ⟨payload, rest, hdelivered⟩
          · exact absurd hfinishes (not_finishes_of_torn hfds hbuffer htorn)
          · by_cases hcrc : headerCrc header = calcCrc32 payload
            · by_cases hanswer : Answerable table (CString.ofBytes payload)
              · rcases finishes_answered_iff hfds hbuffer hdelivered hcrc
                  hanswer with ⟨w', hfds', hincoming', hmallocs', hiff⟩
                have hlt := delivered_weight_lt hdelivered
                rcases hiff.mp hfinishes with ⟨hstays, hfinishes'⟩
                have htail := ih _ (by rw [← hn, hincoming']; exact hlt) hfds'
                  hfinishes' rfl
                rw [hincoming', hmallocs'] at htail
                exact Cooperative.answered hbuffer hdelivered hcrc hanswer
                  hstays htail
              · exact absurd hfinishes (not_finishes_of_not_answerable hfds
                  hbuffer hdelivered hcrc hanswer)
            · exact Cooperative.damaged hbuffer hdelivered hcrc
        · obtain ⟨mallocs, hmallocs⟩ : exists mallocs,
              w.mallocs = false :: mallocs :=
            List.head?_eq_some_iff.mp (not_not.mp hbuffer)
          rcases finishes_noMemory_iff hfds hmallocs hannounced with
            ⟨w', hfds', hincoming', hmallocs', hiff⟩
          have hlt := announced_weight_lt hannounced
          have htail := ih _ (by rw [← hn, hincoming']; exact hlt) hfds'
            (hiff.mp hfinishes) rfl
          rw [hincoming', hmallocs'] at htail
          rw [hmallocs]
          exact Cooperative.noMemory hannounced htail

end

/-- The server survives a connection exactly when the peer cooperates. -/
theorem serve_finishes_iff (table : List RpcFunc) (fd : Int)
    (incoming : List NetEvent) (mallocs : List Bool)
    (sends : List (Option Nat)) (hangups : List Bool) :
    Finishes table fd hangups (accepted fd incoming mallocs sends) <->
      Cooperative (Answerable table) incoming mallocs hangups := by
  constructor
  · intro hfinishes
    exact cooperative_of_finishes rfl hfinishes
  · intro hcooperative
    exact finishes_of_cooperative hcooperative (fun _ => id) rfl rfl rfl

/-- One header that announces a byte, and nothing behind it. -/
theorem lone_header_aborts :
    (serveTo registeredTable 5 []
      (accepted 5 [.segment [0#8, 0#8, 0#8, 0#8, 1#8, 0#8]] [] [])).1 =
        .error .assertion := by
  rfl

end Session
end Z2wRpc
