import Z2wRpc.Dispatch.MessageEdits
import Z2wRpc.Session.Stub

/-!
# String results

The handler puts the string of a method into the response as a JSON string, and
the client prints the item that it finds there.  What a stub of return type
`char*` returns is therefore the literal of the string, quotes and escapes
included, and never the string.
-/

namespace Z2wRpc

open Foundation

namespace Session

open Call CJson Dispatch Wire Program

theorem print_string_ne (r : CString) : print (.string r) ≠ r := by
  intro h
  have hbytes := print_bytes (.string r)
  have hlength := length_le_escape_length r.bytes
  rw [h, printValue, printString] at hbytes
  have hlong := congrArg List.length hbytes
  rw [List.length_cons, List.length_append, List.length_singleton] at hlong
  omega

/-- No stub of return type `char*` returns the string that the method does. -/
theorem text_result_changed {globals : Globals} {ip : CString}
    {sig : Signature} {handler : Handler} {serverTable : List RpcFunc}
    {args handed : List Value}
    {rpc : List Value -> List Room -> Option (Option CString)}
    {r : CString} (hip : globals.rpcServerIp = .live ip)
    (hdeployed : Deployed sig handler globals.rpcCallerTable serverTable)
    (hfit : Fit sig.params args)
    (hexact : forall arg, arg ∈ args -> Exact arg)
    (hhanded : Arguments handler
      (some (.object (argMembers sig.params args))) handed)
    (hbody : handler.body = .text rpc)
    (hreturn : rpc handed (callRooms globals sig handler args) =
      some (some r))
    (fd : Int) :
    (exists outcome, Exchange serverTable fd
      (stub strdup globals sig.method args) outcome) ∧
    ¬ Exchange serverTable fd (stub strdup globals sig.method args)
      (.ok r) := by
  have hreturned : handler.body.resultItem handed
      (callRooms globals sig handler args) = some (some (.string r)) := by
    rw [hbody, Body.resultItem, hreturn]
    rfl
  have hcall := exchange_call_iff strdup hip hdeployed hfit hexact hhanded
    hreturned (Readable.string r) fd
  constructor
  · by_cases hfits : CallFits globals sig args (.string r)
    · exact ⟨_, (hcall _).mpr (Or.inl ⟨hfits, rfl⟩)⟩
    · exact ⟨_, (hcall _).mpr (Or.inr ⟨hfits, rfl⟩)⟩
  · intro hexchange
    rcases (hcall _).mp hexchange with ⟨_, htext⟩ | ⟨_, hfault⟩
    · exact print_string_ne r (Except.ok.inj htext).symm
    · cases hfault

def echoArgs : List Value := [.text (some (.lit "z2w")), .int 3]

theorem echoArgs_fit : Fit echoSignature.params echoArgs :=
  List.Forall₂.cons (Passes.charPointer _)
    (List.Forall₂.cons (Passes.int _) List.Forall₂.nil)

theorem echoArgs_exact : forall arg, arg ∈ echoArgs -> Exact arg := by
  simp [echoArgs, Exact]

section

variable [FreshMemory]

theorem echoArgs_handed : Arguments rpcResponseJsonEncodeEcho
    (some (.object (argMembers echoSignature.params echoArgs))) echoArgs :=
  List.Forall₂.cons ⟨_, rfl, rfl⟩
    (List.Forall₂.cons ⟨_, rfl, rfl⟩ List.Forall₂.nil)

theorem echo_returns : exists text,
    rpcResponseJsonEncodeEcho.body = .text text ∧
    forall room rooms, text echoArgs (room :: rooms) =
      some (some (.lit "Z2W")) :=
  editMessage_text rpcEcho_editsFront messageEdit_swapCase (by decide)
    (by decide)

theorem echo_resultItem (room : Room) (rooms : List Room) :
    rpcResponseJsonEncodeEcho.body.resultItem echoArgs (room :: rooms) =
      some (some (.string (.lit "Z2W"))) := by
  rcases echo_returns with ⟨text, hbody, hreturn⟩
  rw [hbody, Body.resultItem]
  exact congrArg (Option.map (Option.map CJson.string)) (hreturn _ _)

end

/-- The first request of a client that calls `echo("z2w", 3)`. -/
def echoRequest : CString :=
  print (requestDocument (some echoSignature.method)
    (argMembers echoSignature.params echoArgs) 0)

def echoAnswer [FreshMemory] : Answer registeredTable echoRequest where
  toInvocation := deployed_echo.invocation echoArgs_exact 0 echoArgs_handed
  result := some (.string (.lit "Z2W"))
  returned := echo_resultItem _ _

theorem echo_text_changed :
    (exists outcome, Exchange registeredTable 5
      (echo registeredGlobals (.lit "z2w") 3) outcome) ∧
    ¬ Exchange registeredTable 5 (echo registeredGlobals (.lit "z2w") 3)
      (.ok (.lit "Z2W")) := by
  have hdeployed : Deployed echoSignature rpcResponseJsonEncodeEcho
      registeredGlobals.rpcCallerTable registeredTable := deployed_echo
  rcases echo_returns with ⟨text, hbody, hreturn⟩
  exact text_result_changed rfl hdeployed echoArgs_fit echoArgs_exact
    echoArgs_handed hbody (hreturn _ _) 5

/-- The server's method returns `Z2W` and the client's stub `"Z2W"`, with the
quotes. -/
theorem echo_returns_literal :
    rpcEcho (CString.lit "z2w").stored 3 = some (CString.lit "Z2W").stored ∧
    Exchange registeredTable 5 (echo registeredGlobals (.lit "z2w") 3)
      (.ok (.lit "\"Z2W\"")) ∧
    ¬ Exchange registeredTable 5 (echo registeredGlobals (.lit "z2w") 3)
      (.ok (.lit "Z2W")) := by
  have hdeployed : Deployed echoSignature rpcResponseJsonEncodeEcho
      registeredGlobals.rpcCallerTable registeredTable := deployed_echo
  have hcall := exchange_call_iff strdup rfl hdeployed echoArgs_fit
    echoArgs_exact echoArgs_handed (echo_resultItem _ _) (Readable.string _) 5
  have hfits : CallFits registeredGlobals echoSignature echoArgs
      (.string (.lit "Z2W")) := by
    constructor <;> decide +kernel
  have hliteral : print (.string (.lit "Z2W")) = .lit "\"Z2W\"" := by
    decide +kernel
  refine ⟨rfl, (hcall _).mpr (Or.inl ⟨hfits, by rw [hliteral]; rfl⟩), ?_⟩
  intro hexchange
  rcases (hcall _).mp hexchange with ⟨_, htext⟩ | ⟨hlong, _⟩
  · exact print_string_ne _ (Except.ok.inj htext).symm
  · exact hlong hfits

end Session
end Z2wRpc
