import NimbleFix.Codec.Peek
import NimbleFix.Session.SessionCore

/-!
# The session of an inbound Logon (`Engine::ResolveInboundSession`)

An acceptor learns whose connection it has from the header of the first frame. The engine goes
through its configured counterparties and, if unknown sessions are accepted, asks the session
factory. The only state is the next number for a session without one.
-/

namespace NimbleFix

structure CounterpartyConfig where
  session : SessionConfig
  defaultApplVerId : Bytes := []
  deriving DecidableEq, Repr

structure EngineConfig where
  counterparties : List CounterpartyConfig
  acceptUnknownSessions : Bool := false

structure Engine where
  /-- The configuration, once the engine is booted. -/
  config : Option EngineConfig := none
  sessionFactory : Option (SessionKey → Except Status CounterpartyConfig) := none
  /-- The dictionary of a profile, if it is loaded. -/
  loadDictionaryView : Nat → Except Status Dictionary

structure ResolvedCounterparty where
  counterparty : CounterpartyConfig
  dictionary : Dictionary

/-- The key of the session a frame is for, from the local side: sender and target change places. -/
def SessionHeaderView.localKey (h : SessionHeaderView) : SessionKey where
  beginString := h.beginString
  senderCompId := h.targetCompId
  targetCompId := h.senderCompId

/-- The test of the loop over the counterparties. -/
def CounterpartyConfig.accepts (c : CounterpartyConfig) (h : SessionHeaderView) : Bool :=
  c.session.key == h.localKey &&
    (c.defaultApplVerId.isEmpty || c.defaultApplVerId == h.defaultApplVerId)

namespace Engine

def resolved (e : Engine) (c : CounterpartyConfig) : Method Nat ResolvedCounterparty := do
  let dictionary ← Fallible.ofExcept (e.loadDictionaryView c.session.profileId)
  pure { counterparty := c, dictionary }

/-- A session from the factory gets the next number if it has none. -/
def numbered (c : CounterpartyConfig) : Method Nat CounterpartyConfig := fun next =>
  if c.session.sessionId = 0 then
    (.ok { c with session := { c.session with sessionId := next } }, wrap64 (next + 1))
  else (.ok c, next)

def fromFactory (e : Engine) (factory : SessionKey → Except Status CounterpartyConfig)
    (key : SessionKey) : Method Nat ResolvedCounterparty := do
  let c ← Fallible.ofExcept (factory key)
  let c ← numbered c
  e.resolved c

def resolveInboundSession (e : Engine) (h : SessionHeaderView) : Method Nat ResolvedCounterparty :=
  match e.config with
  | none => Fallible.fail (.InvalidArgument "engine is not booted")
  | some config =>
    if h.beginString = [] ∨ h.senderCompId = [] ∨ h.targetCompId = [] then
      Fallible.fail (.InvalidArgument "inbound FIX header is missing session identity fields")
    else
      match config.counterparties.find? (·.accepts h) with
      | some c => e.resolved c
      | none =>
        if !config.acceptUnknownSessions then
          Fallible.fail (.NotFound "no counterparty matched inbound FIX session header")
        else
          match e.sessionFactory with
          | some factory => e.fromFactory factory h.localKey
          | none =>
            Fallible.fail (.NotFound ("accept_unknown_sessions is enabled but no session " ++
              "factory matched the inbound FIX session header"))

/-- The session `BindConnectionFromLogon` takes for a connection whose first frame has the
header. -/
def sessionOfLogon (e : Engine) (h : SessionHeaderView) : Method Nat ResolvedCounterparty :=
  if h.msgType ≠ MsgType.logon then
    Fallible.fail (.InvalidArgument "acceptor requires Logon as the first inbound frame")
  else e.resolveInboundSession h

end Engine

/-! ## What the session depends on -/

namespace Engine

theorem resolveInboundSession_congr (e : Engine) {h h' : SessionHeaderView}
    (hkey : h.localKey = h'.localKey)
    (hver : h.senderCompId ≠ [] → h.targetCompId ≠ [] →
      h.defaultApplVerId = h'.defaultApplVerId) :
    e.resolveInboundSession h = e.resolveInboundSession h' := by
  have hbegin : h.beginString = h'.beginString := congrArg SessionKey.beginString hkey
  have hsender : h.senderCompId = h'.senderCompId := congrArg SessionKey.targetCompId hkey
  have htarget : h.targetCompId = h'.targetCompId := congrArg SessionKey.senderCompId hkey
  unfold resolveInboundSession
  rw [← hbegin, ← hsender, ← htarget, ← hkey]
  cases e.config with
  | none => rfl
  | some config =>
    dsimp only
    by_cases hempty : h.beginString = [] ∨ h.senderCompId = [] ∨ h.targetCompId = []
    · rw [if_pos hempty, if_pos hempty]
    · have hfull := hver (fun hs => hempty (.inr (.inl hs))) (fun ht => hempty (.inr (.inr ht)))
      have hsame : (fun c : CounterpartyConfig => c.accepts h) = fun c => c.accepts h' := by
        funext c
        unfold CounterpartyConfig.accepts
        rw [hkey, hfull]
      rw [hsame]

/-- A booted engine with one counterparty, for the session of `key`. -/
def single (key : SessionKey) (defaultApplVerId : Bytes) : Engine where
  config := some { counterparties := [{ session := { sessionId := 1, key }, defaultApplVerId }] }
  loadDictionaryView _ := .ok {}

/-- An engine whose counterparty asks for a version finds it for exactly this version. -/
theorem single_resolves {h : SessionHeaderView} {version : Bytes} (hversion : version ≠ [])
    (hbegin : h.beginString ≠ []) (hsender : h.senderCompId ≠ []) (htarget : h.targetCompId ≠ [])
    (next : Nat) :
    ((single h.localKey version).resolveInboundSession h next).1.isOk ↔
      version = h.defaultApplVerId := by
  have hfull : ¬(h.beginString = [] ∨ h.senderCompId = [] ∨ h.targetCompId = []) := by
    simp [hbegin, hsender, htarget]
  have haccepts : ∀ c : CounterpartyConfig, c.session.key = h.localKey →
      c.defaultApplVerId = version → (c.accepts h = true ↔ version = h.defaultApplVerId) := by
    intro c hkey hver
    simp [CounterpartyConfig.accepts, hkey, hver, hversion]
  unfold resolveInboundSession single
  dsimp only
  rw [if_neg hfull, List.find?_singleton]
  by_cases hver : version = h.defaultApplVerId
  · rw [if_pos ((haccepts _ rfl rfl).2 hver)]
    exact iff_of_true rfl hver
  · rw [if_neg (fun hc => hver ((haccepts _ rfl rfl).1 hc))]
    exact iff_of_false (by simp [Except.isOk, Except.toBool]) hver

end Engine

end NimbleFix
