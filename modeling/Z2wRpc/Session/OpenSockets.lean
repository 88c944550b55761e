import Z2wRpc.Session.Framing
import Z2wRpc.Session.Moments

/-!
# Open sockets across client calls

`rpc_client_session` closes its connection on one of the ways out only, and goes
on with the descriptor -1 when the connection is refused.  A sequence of calls
leaves the open sockets alone exactly when every call gets a whole reply.
-/

namespace Z2wRpc

open Foundation

namespace Session

open Dispatch Wire Program

/-!
## Sequences of calls
-/

/-- A call of `rpc_client_session` and what it finds. -/
structure Attempt where
  -- `rpc_server_ip` and `rpc_server_port`
  ip : ServerIp
  port : Int16
  request : Option CString
  refused : Bool
  incoming : List NetEvent
  mallocs : List Bool
  sends : List (Option Nat)

/-- `socket` returns a descriptor that is not open. -/
structure Allocates (socket : List Int -> Int) : Prop where
  valid : forall fds, 0 <= socket fds
  fresh : forall fds, socket fds ∉ fds

section

variable (process : CString -> Except Fault (Option CString))
  (socket : List Int -> Int)

def Attempt.world (a : Attempt) (fds : List Int) : World where
  incoming := a.incoming
  mallocs := a.mallocs
  sends := a.sends
  refused := a.refused
  nextFd := socket fds
  openFds := fds
  written := []
  dispatched := []

def Attempt.code (a : Attempt) : Code (Option CString) :=
  rpcClientSession a.ip a.port a.request

def Attempt.run (a : Attempt) (fds : List Int) :
    Except Fault (Option CString) × World :=
  exec (network process) a.code (a.world socket fds)

/-- The open sockets after a sequence of calls, unless the process stops. -/
def openAfter : List Attempt -> List Int -> Option (List Int)
  | [], fds => some fds
  | a :: rest, fds =>
      match a.run process socket fds with
      | (.ok _, w) => openAfter rest w.openFds
      | (.error _, _) => none

def sequenceMoments : List Attempt -> List Int -> List (SysCall × World)
  | [], _ => []
  | a :: rest, fds =>
      moments (network process) a.code (a.world socket fds) ++
        match a.run process socket fds with
        | (.ok _, w) => sequenceMoments rest w.openFds
        | (.error _, _) => []

/-- A `send` or `recv` goes to an open descriptor. -/
def UsesOpen : SysCall -> World -> Prop
  | .send fd _, w => fd ∈ w.openFds
  | .recv fd _, w => fd ∈ w.openFds
  | _, _ => True

/--
The calls use open descriptors only, and whenever one of them has returned the
open sockets are those from before the sequence.
-/
structure LeaksNothing (attempts : List Attempt) (fds : List Int) : Prop where
  uses : forall m, m ∈ sequenceMoments process socket attempts fds ->
    UsesOpen m.1 m.2
  restores : forall calls after, calls <+: attempts ->
    openAfter process socket calls fds = some after ->
    forall fd, fd ∈ after <-> fd ∈ fds

end

/-!
## Calls that leave the open sockets alone
-/

structure Attempt.Served (a : Attempt) : Prop where
  address : exists ip, a.ip = .live ip
  request : a.request ≠ none
  accepted : a.refused = false
  buffer : a.mallocs.head? ≠ some false
  reply : exists h payload rest, Delivered a.incoming h payload rest ∧
    headerCrc h = calcCrc32 payload

def Torn (events : List NetEvent) : Prop :=
  exists h rest, Announced events h rest ∧
    forall payload rest', ¬ Delivered events h payload rest'

def Attempt.Stops (a : Attempt) : Prop :=
  (forall ip, a.ip ≠ .live ip) ∨
    a.refused = false ∧ (a.request = none ∨
      a.mallocs.head? ≠ some false ∧ Torn a.incoming)

def AllServed : List Attempt -> Prop
  | [] => True
  | a :: rest => a.Stops ∨ a.Served ∧ AllServed rest

/-!
## Receptions
-/

section

variable {events : List NetEvent}

theorem reception_payload_iff :
    (exists text, (reception true events).1 = .payload text) <->
      exists h payload rest, Delivered events h payload rest ∧
        headerCrc h = calcCrc32 payload := by
  constructor
  · intro h
    rcases h with ⟨text, htext⟩
    rcases delivery_cases events with hsilent |
      ⟨h, rest, _, htorn | ⟨payload, rest', hdelivered⟩⟩
    · rw [reception_of_silent hsilent] at htext
      cases htext
    · rw [htorn] at htext
      cases htext
    · refine ⟨h, payload, rest', hdelivered, ?_⟩
      by_contra hcrc
      rw [reception_of_delivered hdelivered, if_neg hcrc] at htext
      cases htext
  · intro h
    rcases h with ⟨h, payload, rest, hdelivered, hcrc⟩
    exists CString.ofBytes payload
    rw [reception_of_delivered hdelivered, if_pos hcrc]

theorem reception_without_buffer (events : List NetEvent) :
    (reception false events).1 = .ended ∨
      (reception false events).1 = .noMemory := by
  rcases delivery_cases events with hsilent | ⟨h, rest, hannounced, _⟩
  · exact Or.inl (reception_of_silent hsilent false)
  · right
    rw [reception_of_announced hannounced]

theorem announced_unique {h h' : List Byte} {rest rest' : List NetEvent}
    (hannounced : Announced events h rest)
    (hannounced' : Announced events h' rest') : h = h' := by
  rcases hannounced with ⟨b, bs, hreceive, rfl⟩
  rcases hannounced' with ⟨b', bs', hreceive', rfl⟩
  rw [hreceive] at hreceive'
  rcases Prod.mk.inj hreceive' with ⟨hbytes, _⟩
  rw [Option.some.inj hbytes]

theorem reception_torn_iff :
    (reception true events).1 = .torn <-> Torn events := by
  rcases delivery_cases events with hsilent |
    ⟨h, rest, hannounced, htorn | ⟨payload, rest', hdelivered⟩⟩
  · rw [reception_of_silent hsilent]
    refine iff_of_false (fun h => by cases h) fun htorn => ?_
    rcases htorn with ⟨h, rest, ⟨b, bs, hreceive, _⟩, _⟩
    rcases hsilent with hsilent | hsilent
    · rw [hreceive] at hsilent
      cases hsilent
    · rw [hreceive] at hsilent
      cases hsilent
  · refine iff_of_true htorn
      ⟨h, rest, hannounced, fun payload rest' hdelivered => ?_⟩
    rw [reception_of_delivered hdelivered] at htorn
    split_ifs at htorn
  · refine iff_of_false (fun htorn => ?_) fun htorn => ?_
    · rw [reception_of_delivered hdelivered] at htorn
      split_ifs at htorn
    · rcases htorn with ⟨h', rest'', hannounced', hnone⟩
      rw [announced_unique hannounced' hannounced] at hnone
      exact hnone payload rest' hdelivered

end

/-!
## One call
-/

section

variable {process : CString -> Except Fault (Option CString)} {w : World}
  {fd : Int}

/-- The session on the descriptor that `connect_tcp_server` returns. -/
def sessionOn (connfd : Int) (requestJson : Option CString) :
    Code (Option CString) := do
  let _ ← Code.send connfd (rpcHeaderEncode requestJson)
  match requestJson with
  | none => abort .nullString
  | some request => do
      let _ ← Code.send connfd (some request.bytes)
      receiveFrame connfd (return none) (return none) (return none)
        fun payload => do
          Code.close connfd
          return some payload

theorem rpcClientSession_eq (ip : ServerIp) (port : Int16)
    (requestJson : Option CString) :
    rpcClientSession ip port requestJson = (do
      let connfd ← connectTcpServer ip port
      sessionOn connfd requestJson) := rfl

theorem exec_connect_refused (h : w.refused = true) (ip : CString)
    (port : Int16) :
    exec (network process) (connectTcpServer (.live ip) port) w =
      (.ok (-1), w.opened) := by
  have hconnect : (if w.refused = true ∨ w.nextFd ∉ w.nextFd :: w.openFds then
      (-1 : Int) else 0) = -1 := if_pos (Or.inl h)
  rw [connectTcpServer, Code.socket, exec_call_bind]
  simp only [network]
  rw [Code.connect, exec_call_bind]
  simp only [network, hconnect]
  rfl

theorem exec_connect_stops {ip : ServerIp} (h : forall text, ip ≠ .live text)
    (port : Int16) :
    exists e w', exec (network process) (connectTcpServer ip port) w =
      (.error e, w') := by
  cases ip with
  | live text => exact absurd rfl (h text)
  | null => exact ⟨_, _, rfl⟩
  | released => exact ⟨_, _, rfl⟩

theorem always_connect (ip : ServerIp) (port : Int16) :
    Always (network process) UsesOpen (connectTcpServer ip port) w := by
  rw [connectTcpServer, Code.socket]
  refine always_call_bind_iff.mpr ⟨trivial, ?_⟩
  cases ip with
  | null => exact always_abort _
  | released => exact always_abort _
  | live ip =>
      refine always_call_bind_iff.mpr ⟨trivial, ?_⟩
      split
      · exact always_pure _
      · exact always_pure _

theorem usesOpen_of_receives (hopen : fd ∈ w.openFds) {call : SysCall}
    {w' : World} (hreceives : Receives fd call) (hsame : SameOutput w w') :
    UsesOpen call w' := by
  cases call with
  | recv fd' n =>
      obtain rfl : fd' = fd := hreceives
      rw [UsesOpen, hsame.openFds]
      exact hopen
  | malloc n => trivial
  | _ => cases hreceives

theorem always_sessionOn (hopen : fd ∈ w.openFds)
    (requestJson : Option CString) :
    Always (network process) UsesOpen (sessionOn fd requestJson) w := by
  cases requestJson with
  | none => exact always_call_bind_iff.mpr ⟨hopen, always_abort _⟩
  | some request =>
      have hheader : fd ∈ (w.transmit (header request)).2.openFds := by
        rw [transmit_openFds]
        exact hopen
      have hsent : fd ∈ (w.sendFrame request).openFds := by
        rw [sendFrame_openFds]
        exact hopen
      simp only [sessionOn, rpcHeaderEncode]
      rw [always_send_iff hopen, always_send_iff hheader]
      refine ⟨hopen, hheader, ?_⟩
      show Always (network process) UsesOpen _ (w.sendFrame request)
      rw [always_receiveFrame_iff hsent fun _ _ => usesOpen_of_receives hsent]
      split
      · exact always_pure _
      · exact always_pure _
      · trivial
      · exact always_pure _
      · exact always_call_bind_iff.mpr ⟨trivial, always_pure _⟩

theorem not_always_refused (hrefused : w.refused = true)
    (hvalid : forall fd, fd ∈ w.openFds -> 0 <= fd) (hnext : 0 <= w.nextFd)
    (ip : CString) (port : Int16) (requestJson : Option CString) :
    ¬ Always (network process) UsesOpen
      (rpcClientSession (.live ip) port requestJson) w := by
  intro h
  rw [rpcClientSession_eq, always_bind_iff] at h
  have hsession := h.right (-1) w.opened (exec_connect_refused hrefused ip port)
  have hsend : (-1 : Int) ∈ w.opened.openFds :=
    (always_call_bind_iff.mp hsession).left
  rcases List.mem_cons.mp hsend with heq | hmem
  · omega
  · have hge := hvalid _ hmem
    omega

theorem always_accepted (h : w.refused = false) (ip : CString) (port : Int16)
    (requestJson : Option CString) :
    Always (network process) UsesOpen
      (rpcClientSession (.live ip) port requestJson) w := by
  rw [rpcClientSession_eq, always_bind_iff]
  refine ⟨always_connect _ _, fun connfd w' hexec => ?_⟩
  rw [exec_connectTcpServer h] at hexec
  rcases Prod.mk.inj hexec with ⟨hfd, rfl⟩
  obtain rfl : w.nextFd = connfd := Except.ok.inj hfd
  exact always_sessionOn (List.mem_cons_self ..) requestJson

end

/-!
## The outcomes of a call
-/

section

variable {process : CString -> Except Fault (Option CString)}
  {socket : List Int -> Int} {a : Attempt} {fds : List Int}

theorem world_buffer :
    (a.world socket fds).allocate.1 = true <->
      a.mallocs.head? ≠ some false := by
  unfold World.allocate Attempt.world
  cases a.mallocs with
  | nil => simp
  | cons ok rest => simp

theorem run_no_address (h : forall ip, a.ip ≠ .live ip) :
    Always (network process) UsesOpen a.code (a.world socket fds) ∧
      exists e w, a.run process socket fds = (.error e, w) := by
  rcases @exec_connect_stops process (a.world socket fds) _ h a.port
    with ⟨e, w, hexec⟩
  rw [Attempt.run, Attempt.code, rpcClientSession_eq, always_bind_iff,
    exec_bind, hexec]
  exact ⟨⟨always_connect _ _, fun connfd w' hok => by cases hok⟩, e, w, rfl⟩

theorem run_accepted {ip : CString} {request : CString}
    (hip : a.ip = .live ip) (haccepted : a.refused = false)
    (hrequest : a.request = some request) :
    exists w, a.run process socket fds =
      (sessionResult (reception (a.world socket fds).allocate.1 a.incoming).1,
        w) ∧ w.openFds =
          match (reception (a.world socket fds).allocate.1 a.incoming).1 with
          | .payload _ => fds
          | _ => socket fds :: fds := by
  have hrefused : (a.world socket fds).refused = false := haccepted
  have hresult := (@exec_rpcClientSession process _ hrefused ip a.port
    request).left
  have hopenFds := @exec_rpcClientSession_openFds process _ hrefused ip a.port
    request
  rw [Attempt.run, Attempt.code, hip, hrequest]
  exact ⟨_, Prod.ext hresult rfl, hopenFds⟩

theorem always_live {ip : CString} (hip : a.ip = .live ip)
    (haccepted : a.refused = false) :
    Always (network process) UsesOpen a.code (a.world socket fds) := by
  have hrefused : (a.world socket fds).refused = false := haccepted
  rw [Attempt.code, hip]
  exact always_accepted hrefused ip a.port a.request

theorem run_no_request {ip : CString} (hip : a.ip = .live ip)
    (haccepted : a.refused = false) (h : a.request = none) :
    exists e w, a.run process socket fds = (.error e, w) := by
  have hrefused : (a.world socket fds).refused = false := haccepted
  rw [Attempt.run, Attempt.code, hip, h, rpcClientSession_eq, exec_bind,
    exec_connectTcpServer hrefused]
  exact ⟨_, _, rfl⟩

theorem live_of_not_forall (h : ¬ forall ip, a.ip ≠ .live ip) :
    exists ip, a.ip = .live ip := by
  by_contra hnone
  exact h fun ip hip => hnone ⟨ip, hip⟩

theorem run_stops (h : a.Stops) :
    Always (network process) UsesOpen a.code (a.world socket fds) ∧
      exists e w, a.run process socket fds = (.error e, w) := by
  by_cases haddress : forall ip, a.ip ≠ .live ip
  · exact run_no_address haddress
  · rcases live_of_not_forall haddress with ⟨ip, hip⟩
    rcases h with hnone | ⟨haccepted, hstops⟩
    · exact absurd hnone haddress
    · refine ⟨always_live hip haccepted, ?_⟩
      rcases hrequest : a.request with _ | request
      · exact run_no_request hip haccepted hrequest
      · rcases hstops with hnone | ⟨hbuffer, htorn⟩
        · rw [hrequest] at hnone
          cases hnone
        · rcases @run_accepted process socket a fds ip request hip haccepted
            hrequest with ⟨w, hrun, _⟩
          rw [world_buffer.mpr hbuffer, reception_torn_iff.mpr htorn] at hrun
          exact ⟨_, w, hrun⟩

theorem run_served (h : a.Served) :
    Always (network process) UsesOpen a.code (a.world socket fds) ∧
      exists text w, a.run process socket fds = (.ok (some text), w) ∧
        w.openFds = fds := by
  rcases h.address with ⟨ip, hip⟩
  rcases Option.ne_none_iff_exists'.mp h.request with ⟨request, hrequest⟩
  rcases reception_payload_iff.mpr h.reply with ⟨text, htext⟩
  rcases @run_accepted process socket a fds ip request hip h.accepted hrequest
    with ⟨w, hrun, hopenFds⟩
  rw [world_buffer.mpr h.buffer, htext] at hrun hopenFds
  exact ⟨always_live hip h.accepted, text, w, hrun, hopenFds⟩

theorem run_leaks (hstops : ¬ a.Stops) (hserved : ¬ a.Served)
    (haccepted : a.refused = false) :
    exists w, a.run process socket fds = (.ok none, w) ∧
      w.openFds = socket fds :: fds := by
  have haddress : ¬ forall ip, a.ip ≠ .live ip := fun h => hstops (Or.inl h)
  have hrequest : a.request ≠ none := fun h =>
    hstops (Or.inr ⟨haccepted, Or.inl h⟩)
  rcases live_of_not_forall haddress with ⟨ip, hip⟩
  rcases Option.ne_none_iff_exists'.mp hrequest with ⟨request, hsome⟩
  rcases @run_accepted process socket a fds ip request hip haccepted hsome
    with ⟨w, hrun, hopenFds⟩
  by_cases hbuffer : a.mallocs.head? ≠ some false
  · rw [world_buffer.mpr hbuffer] at hrun hopenFds
    rcases hreception : (reception true a.incoming).1 with _ | _ | _ | _ | text
    · rw [hreception] at hrun hopenFds
      exact ⟨w, hrun, hopenFds⟩
    · rw [hreception] at hrun hopenFds
      exact ⟨w, hrun, hopenFds⟩
    · have htorn : Torn a.incoming := reception_torn_iff.mp hreception
      exact absurd (Or.inr ⟨haccepted, Or.inr ⟨hbuffer, htorn⟩⟩) hstops
    · rw [hreception] at hrun hopenFds
      exact ⟨w, hrun, hopenFds⟩
    · have hreply := reception_payload_iff.mp ⟨text, hreception⟩
      exact absurd ⟨⟨ip, hip⟩, hrequest, haccepted, hbuffer, hreply⟩ hserved
  · have hfailed : (a.world socket fds).allocate.1 = false :=
      Bool.eq_false_iff.mpr fun h => hbuffer (world_buffer.mp h)
    rw [hfailed] at hrun hopenFds
    rcases reception_without_buffer a.incoming with hended | hnoMemory
    · rw [hended] at hrun hopenFds
      exact ⟨w, hrun, hopenFds⟩
    · rw [hnoMemory] at hrun hopenFds
      exact ⟨w, hrun, hopenFds⟩

theorem not_always_refused_call (hvalid : forall fd, fd ∈ fds -> 0 <= fd)
    (hsocket : Allocates socket) (hstops : ¬ a.Stops)
    (hrefused : a.refused = true) :
    ¬ Always (network process) UsesOpen a.code (a.world socket fds) := by
  have haddress : ¬ forall ip, a.ip ≠ .live ip := fun h => hstops (Or.inl h)
  rcases live_of_not_forall haddress with ⟨ip, hip⟩
  rw [Attempt.code, hip]
  exact not_always_refused hrefused hvalid (hsocket.valid fds) ip a.port
    a.request

end

/-!
## Sequences of calls
-/

section

variable {process : CString -> Except Fault (Option CString)}
  {socket : List Int -> Int} {a : Attempt} {attempts : List Attempt}
  {fds : List Int}

theorem leaksNothing_of_stops (h : a.Stops) :
    LeaksNothing process socket (a :: attempts) fds := by
  rcases @run_stops process socket a fds h with ⟨halways, e, w, hrun⟩
  refine ⟨fun m hm => ?_, fun calls after hprefix hafter => ?_⟩
  · rw [sequenceMoments, hrun, List.append_nil] at hm
    exact halways m hm
  · rcases List.prefix_cons_iff.mp hprefix with rfl | ⟨rest, rfl, _⟩
    · obtain rfl : fds = after := Option.some.inj hafter
      exact fun fd => Iff.rfl
    · rw [openAfter, hrun] at hafter
      cases hafter

theorem leaksNothing_cons_of_served (h : a.Served) :
    LeaksNothing process socket (a :: attempts) fds <->
      LeaksNothing process socket attempts fds := by
  rcases @run_served process socket a fds h
    with ⟨halways, text, w, hrun, hopenFds⟩
  have hmoments : sequenceMoments process socket (a :: attempts) fds =
      moments (network process) a.code (a.world socket fds) ++
        sequenceMoments process socket attempts fds := by
    rw [sequenceMoments, hrun]
    simp only [hopenFds]
  have hafter : forall calls, openAfter process socket (a :: calls) fds =
      openAfter process socket calls fds := by
    intro calls
    rw [openAfter, hrun]
    simp only [hopenFds]
  constructor
  · intro hleaks
    refine ⟨fun m hm => ?_, fun calls after hprefix hcalls => ?_⟩
    · exact hleaks.uses m (hmoments ▸ List.mem_append_right _ hm)
    · exact hleaks.restores (a :: calls) after
        (List.cons_prefix_cons.mpr ⟨rfl, hprefix⟩) ((hafter calls).trans hcalls)
  · intro hleaks
    refine ⟨fun m hm => ?_, fun calls after hprefix hcalls => ?_⟩
    · rw [hmoments] at hm
      rcases List.mem_append.mp hm with hcall | hrest
      · exact halways m hcall
      · exact hleaks.uses m hrest
    · rcases List.prefix_cons_iff.mp hprefix with rfl | ⟨rest, rfl, hrest⟩
      · obtain rfl : fds = after := Option.some.inj hcalls
        exact fun fd => Iff.rfl
      · exact hleaks.restores rest after hrest ((hafter rest).symm.trans hcalls)

theorem not_leaksNothing (hsocket : Allocates socket)
    (hvalid : forall fd, fd ∈ fds -> 0 <= fd) (hstops : ¬ a.Stops)
    (hserved : ¬ a.Served) :
    ¬ LeaksNothing process socket (a :: attempts) fds := by
  intro hleaks
  cases hrefused : a.refused with
  | true =>
      refine @not_always_refused_call process socket a fds hvalid hsocket
        hstops hrefused fun m hm => hleaks.uses m ?_
      exact List.mem_append_left _ hm
  | false =>
      rcases @run_leaks process socket a fds hstops hserved hrefused
        with ⟨w, hrun, hopenFds⟩
      have hafter : openAfter process socket [a] fds =
          some (socket fds :: fds) := by
        rw [openAfter, hrun]
        simp only [hopenFds]
        rfl
      have hsame := hleaks.restores [a] _ (List.prefix_append [a] attempts)
        hafter (socket fds)
      exact hsocket.fresh fds (hsame.mp List.mem_cons_self)

/--
Client calls leak no connection, and use none that is not theirs, exactly when
every call up to one that stops the process gets its whole reply.
-/
theorem leaksNothing_iff (hsocket : Allocates socket)
    (hvalid : forall fd, fd ∈ fds -> 0 <= fd) :
    LeaksNothing process socket attempts fds <-> AllServed attempts := by
  induction attempts with
  | nil =>
      refine iff_of_true ⟨fun m hm => ?_, fun calls after hprefix h => ?_⟩
        trivial
      · cases hm
      · obtain rfl := List.prefix_nil.mp hprefix
        obtain rfl : fds = after := Option.some.inj h
        exact fun fd => Iff.rfl
  | cons a rest ih =>
      by_cases hstops : a.Stops
      · exact iff_of_true (leaksNothing_of_stops hstops) (Or.inl hstops)
      · by_cases hserved : a.Served
        · rw [leaksNothing_cons_of_served hserved, ih]
          constructor
          · exact fun h => Or.inr ⟨hserved, h⟩
          · intro h
            exact (h.resolve_left hstops).right
        · refine iff_of_false
            (not_leaksNothing hsocket hvalid hstops hserved) fun h => ?_
          exact hserved (h.resolve_left hstops).left

end

def nextDescriptor (fds : List Int) : Int :=
  fds.foldr max 2 + 1

theorem foldr_max_ge (fds : List Int) :
    2 <= fds.foldr max 2 ∧ forall fd, fd ∈ fds -> fd <= fds.foldr max 2 := by
  induction fds with
  | nil => exact ⟨le_refl _, fun fd h => by cases h⟩
  | cons first rest ih =>
      refine ⟨le_max_of_le_right ih.left, fun fd h => ?_⟩
      rcases List.mem_cons.mp h with rfl | hrest
      · exact le_max_left _ _
      · exact le_max_of_le_right (ih.right fd hrest)

theorem nextDescriptor_allocates : Allocates nextDescriptor where
  valid fds := by
    have hge := (foldr_max_ge fds).left
    unfold nextDescriptor
    omega
  fresh fds h := by
    have hle := (foldr_max_ge fds).right _ h
    unfold nextDescriptor at hle
    omega

/-- A call that is answered with `reply`, or with nothing. -/
def callOf (reply : List NetEvent) : Attempt where
  ip := .live (CString.lit "127.0.0.1")
  port := 9096
  request := some (CString.lit "1")
  refused := false
  incoming := reply
  mallocs := []
  sends := []

theorem answered_served :
    (callOf [.segment (frame (CString.lit "3") ++ [])]).Served where
  address := ⟨_, rfl⟩
  request := by simp [callOf]
  accepted := rfl
  buffer := by simp [callOf]
  reply := ⟨_, _, _, delivered_whole_frame (by decide) [],
    headerCrc_header _⟩

theorem leaksNothing_answered :
    LeaksNothing (fun _ => .ok none) nextDescriptor
      [callOf [.segment (frame (CString.lit "3") ++ [])],
        callOf [.segment (frame (CString.lit "3") ++ [])]] [0, 1, 2] :=
  (leaksNothing_iff nextDescriptor_allocates (by decide)).mpr
    (Or.inr ⟨answered_served, Or.inr ⟨answered_served, trivial⟩⟩)

/-- A server that closes without a reply costs its client one descriptor. -/
theorem unanswered_call_leaks :
    openAfter (fun _ => .ok none) nextDescriptor [callOf [], callOf []]
        [0, 1, 2] = some [4, 3, 0, 1, 2] ∧
      ¬ LeaksNothing (fun _ => .ok none) nextDescriptor
        [callOf [], callOf []] [0, 1, 2] := by
  have hafter : openAfter (fun _ => .ok none) nextDescriptor
      [callOf [], callOf []] [0, 1, 2] = some [4, 3, 0, 1, 2] := by
    rfl
  refine ⟨hafter, fun h => ?_⟩
  have hsame := h.restores _ _ (List.prefix_refl _) hafter 4
  exact absurd (hsame.mp List.mem_cons_self) (by decide)

end Session
end Z2wRpc
