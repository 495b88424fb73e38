import EdgeAgent.Activation
import EdgeAgent.EncodedTexts

/-!
# What the log shows of secrets

Tokens, secrets and the body of a refusal are shortened before they are logged. The cuts are made
at byte offsets, and one inside a character ends the agent; the result is none then.
-/
namespace EdgeAgent.Security
open EncodedTexts

def firstAndLast (s : String) : Option String := do
  let head ← sliceTo s 4
  let tail ← sliceFrom s (s.utf8ByteSize - 4)
  return head ++ "..." ++ tail

def maskSecret (secret : String) : Option String :=
  if 8 < secret.utf8ByteSize then firstAndLast secret else some "****"

/-- One of the two cuts falls into a character. -/
def SplitAtEnds (s : String) : Prop := CharAcross s 4 ∨ CharAcross s (s.utf8ByteSize - 4)

variable {s shown : String}

private theorem firstAndLast_ne_none_iff (h : 4 ≤ s.utf8ByteSize) :
    firstAndLast s ≠ none ↔ ¬SplitAtEnds s := by
  have hto := sliceTo_ne_none_iff h
  have hfrom := sliceFrom_ne_none_iff (Nat.sub_le s.utf8ByteSize 4)
  rw [SplitAtEnds, not_or, ← hto, ← hfrom, firstAndLast]
  cases sliceTo s 4 with
  | none => simp
  | some head =>
    cases sliceFrom s (s.utf8ByteSize - 4) with
    | none => simp
    | some tail => simp

private theorem maskSecret_ne_none_iff (secret : String) :
    maskSecret secret ≠ none ↔ (8 < secret.utf8ByteSize → ¬SplitAtEnds secret) := by
  rw [maskSecret]
  by_cases h : 8 < secret.utf8ByteSize
  · rw [if_pos h, firstAndLast_ne_none_iff (by omega)]
    exact ⟨fun hends _ => hends, fun hends => hends h⟩
  · rw [if_neg h]
    exact iff_of_true nofun fun hlong => absurd hlong h

end EdgeAgent.Security

namespace EdgeAgent.Provisioning
open Config EncodedTexts Security

def maskToken (token : String) : Option String :=
  if 12 ≤ token.utf8ByteSize then firstAndLast token
  else if 0 < token.utf8ByteSize then
    some (String.ofList (List.replicate (min token.utf8ByteSize 8) '*'))
  else some "(empty)"

def truncatedBody (body : String) : Option String :=
  if 100 < body.utf8ByteSize then (sliceTo body 100).map (· ++ "...(truncated)") else some body

namespace CloudApi

/-- A refusal, and its line in the log. -/
def loggedRefusal (api : CloudApi) (status body : String) : Option (String × ActivationError) :=
  match api.parseError body with
  | some response =>
    let line := s!"Activation failed: {response.error} ({response.errorCode})"
    match ActivationErrorCode.fromStr response.errorCode with
    | some code => some (line, .refused code)
    | none => some (line, .provisioning response.error)
  | none => do
    let truncated ← truncatedBody body
    return (s!"Activation failed with status {status}: {truncated}", .unknown s!"HTTP {status}")

/-- `activate`, with what it logs of a refusal. -/
def loggedActivate (api : CloudApi) (config : DeviceConfig) :
    Option (Except ActivationError ActivationResponse) :=
  match config.provisioningToken with
  | none => some (.error .notActivated)
  | some token =>
    let request : ActivationRequest := ⟨config.deviceId, token, api.fingerprint, api.agentVersion⟩
    match api.send s!"{config.apiUrl}/api/devices/activate" request with
    | .error _ => some (.error (.failed "Failed to send activation request"))
    | .ok reply =>
      match reply.text with
      | .error _ => some (.error (.failed "Failed to read response body"))
      | .ok body =>
        if reply.isSuccess then
          match api.parseResponse body with
          | .error _ => some (.error (.failed "Failed to parse activation response"))
          | .ok activation =>
            if activation.success then some (.ok activation)
            else (api.loggedRefusal reply.status body).map fun p => .error p.2
        else (api.loggedRefusal reply.status body).map fun p => .error p.2

/-- The status and the body of an answer that grants nothing. -/
def refusedReply (api : CloudApi) (config : DeviceConfig) : Option (String × String) := do
  let token ← config.provisioningToken
  let request : ActivationRequest := ⟨config.deviceId, token, api.fingerprint, api.agentVersion⟩
  let reply ← (api.send s!"{config.apiUrl}/api/devices/activate" request).toOption
  let body ← reply.text.toOption
  if reply.isSuccess then
    let activation ← (api.parseResponse body).toOption
    if activation.success then none else some (reply.status, body)
  else some (reply.status, body)

end CloudApi

/-! ## Tokens -/

private theorem maskToken_ne_none_iff (token : String) :
    maskToken token ≠ none ↔ (12 ≤ token.utf8ByteSize → ¬SplitAtEnds token) := by
  rw [maskToken]
  by_cases h : 12 ≤ token.utf8ByteSize
  · rw [if_pos h, firstAndLast_ne_none_iff (by omega)]
    exact ⟨fun hends _ => hends, fun hends => hends h⟩
  · rw [if_neg h]
    refine iff_of_true ?_ fun hlong => absurd hlong h
    split <;> exact nofun

/-! ## The answer of the cloud -/

theorem truncatedBody_ne_none_iff (body : String) :
    truncatedBody body ≠ none ↔ (100 < body.utf8ByteSize → ¬CharAcross body 100) := by
  rw [truncatedBody]
  by_cases h : 100 < body.utf8ByteSize
  · rw [if_pos h, Ne, Option.map_eq_none_iff, ← Ne, sliceTo_ne_none_iff (Nat.le_of_lt h)]
    exact ⟨fun hacross _ => hacross, fun hacross => hacross h⟩
  · rw [if_neg h]
    exact iff_of_true nofun fun hlong => absurd hlong h

theorem truncatedBody_ne_none_iff_firstByte (body : String)
    (h : (⟨100⟩ : String.Pos.Raw) < body.rawEndPos) :
    truncatedBody body ≠ none ↔ (body.getUTF8Byte ⟨100⟩ h).IsUTF8FirstByte := by
  have hlong : 100 < body.utf8ByteSize := String.Pos.Raw.lt_iff.mp h
  rw [truncatedBody, if_pos hlong, Ne, Option.map_eq_none_iff, ← Ne,
    sliceTo_ne_none_iff_firstByte, or_iff_right (Nat.ne_of_lt hlong)]
  exact exists_prop_of_true h

theorem truncatedBody_eq_none (front : List Char) (c : Char) (back : List Char)
    (hbefore : size Char.utf8Size front < 100)
    (hbehind : 100 < size Char.utf8Size front + c.utf8Size) :
    truncatedBody (String.ofList (front ++ c :: back)) = none := by
  have hlong : 100 < (String.ofList (front ++ c :: back)).utf8ByteSize := by
    rw [utf8ByteSize_ofList, size_append, size_cons, ← Nat.add_assoc]
    exact Nat.lt_of_lt_of_le hbehind (Nat.le_add_right _ _)
  by_contra h
  exact (truncatedBody_ne_none_iff _).mp h hlong
    ⟨front, c, back, String.toList_ofList, hbefore, hbehind⟩

namespace CloudApi
variable (api : CloudApi) (config : DeviceConfig)

/-- A refusal that is logged is the refusal that is returned. -/
theorem exists_loggedRefusal_eq {body : String}
    (h : api.parseError body = none → truncatedBody body ≠ none) (status : String) :
    ∃ line, api.loggedRefusal status body = some (line, api.refusal status body) := by
  rw [loggedRefusal, refusal]
  cases hparse : api.parseError body with
  | none =>
    obtain ⟨truncated, htruncated⟩ := Option.ne_none_iff_exists'.mp (h hparse)
    rw [htruncated]
    exact ⟨_, rfl⟩
  | some response =>
    dsimp only
    cases ActivationErrorCode.fromStr response.errorCode with
    | none => exact ⟨_, rfl⟩
    | some code => exact ⟨_, rfl⟩

private theorem loggedRefusal_eq_none {body : String} (hparse : api.parseError body = none)
    (htruncated : truncatedBody body = none) (status : String) :
    api.loggedRefusal status body = none := by
  rw [loggedRefusal, hparse, htruncated]
  rfl

private theorem loggedRefusal_ne_none_iff (status body : String) :
    api.loggedRefusal status body ≠ none ↔
      (api.parseError body = none → 100 < body.utf8ByteSize → ¬CharAcross body 100) := by
  rw [← truncatedBody_ne_none_iff]
  constructor
  · intro h hparse htruncated
    exact h (api.loggedRefusal_eq_none hparse htruncated status)
  · intro h
    obtain ⟨line, hline⟩ := api.exists_loggedRefusal_eq h status
    rw [hline]
    exact nofun

theorem loggedActivate_cases :
    (api.refusedReply config = none ∧ api.loggedActivate config = some (api.activate config)) ∨
      ∃ status body, api.refusedReply config = some (status, body) ∧
        api.activate config = .error (api.refusal status body) ∧
        api.loggedActivate config =
          (api.loggedRefusal status body).map fun p => .error p.2 := by
  rw [loggedActivate, activate, refusedReply]
  cases config.provisioningToken with
  | none => exact .inl ⟨rfl, rfl⟩
  | some token =>
    dsimp only [Option.bind_eq_bind, Option.bind_some]
    cases api.send s!"{config.apiUrl}/api/devices/activate"
      ⟨config.deviceId, token, api.fingerprint, api.agentVersion⟩ with
    | error e => exact .inl ⟨rfl, rfl⟩
    | ok reply =>
      dsimp only [Except.toOption, Option.bind_some]
      cases reply.text with
      | error e => exact .inl ⟨rfl, rfl⟩
      | ok body =>
        dsimp only [Option.bind_some]
        cases reply.isSuccess with
        | false => exact .inr ⟨reply.status, body, rfl, rfl, rfl⟩
        | true =>
          cases api.parseResponse body with
          | error e => exact .inl ⟨rfl, rfl⟩
          | ok activation =>
            dsimp only [Option.bind_some]
            cases activation.success with
            | false => exact .inr ⟨reply.status, body, rfl, rfl, rfl⟩
            | true => exact .inl ⟨rfl, rfl⟩

variable {config}

private theorem loggedActivate_ne_none_iff :
    api.loggedActivate config ≠ none ↔
      ∀ status body, api.refusedReply config = some (status, body) →
        api.parseError body = none → 100 < body.utf8ByteSize → ¬CharAcross body 100 := by
  obtain ⟨hreply, hlogged⟩ | ⟨status, body, hreply, -, hlogged⟩ :=
    api.loggedActivate_cases config
  · rw [hlogged, hreply]
    exact iff_of_true nofun nofun
  · rw [hlogged, hreply, Ne, Option.map_eq_none_iff, ← Ne, loggedRefusal_ne_none_iff]
    constructor
    · intro h status' body' hreply'
      cases hreply'
      exact h
    · exact fun h => h status body rfl

end CloudApi

/-! ## When the log is written -/

/-- Nothing that is logged ends the agent, except where a cut falls into a character: four bytes
from an end of a token or a secret, or behind the hundredth byte of a refusal that is no JSON. -/
theorem masking_returns_iff (token secret body : String) (api : CloudApi)
    (config : DeviceConfig) :
    (maskToken token ≠ none ↔ (12 ≤ token.utf8ByteSize → ¬SplitAtEnds token)) ∧
      (maskSecret secret ≠ none ↔ (8 < secret.utf8ByteSize → ¬SplitAtEnds secret)) ∧
      (truncatedBody body ≠ none ↔ (100 < body.utf8ByteSize → ¬CharAcross body 100)) ∧
      (api.loggedActivate config ≠ none ↔
        ∀ status body, api.refusedReply config = some (status, body) →
          api.parseError body = none → 100 < body.utf8ByteSize → ¬CharAcross body 100) :=
  ⟨maskToken_ne_none_iff token, maskSecret_ne_none_iff secret, truncatedBody_ne_none_iff body,
    api.loggedActivate_ne_none_iff⟩

def gatewayPage : String := String.ofList (List.replicate 99 'x' ++ ['é'])

def gatewayApi : CloudApi where
  fingerprint := ⟨none, [], none, none⟩
  agentVersion := "1.2.2"
  send _ _ := .ok ⟨false, "502 Bad Gateway", .ok gatewayPage⟩
  parseResponse _ := .error "expected value"
  parseError _ := none

private theorem truncatedBody_gatewayPage : truncatedBody gatewayPage = none := by
  apply truncatedBody_eq_none (List.replicate 99 'x') 'é' []
  · rw [size_replicate]
    decide
  · rw [size_replicate]
    decide

theorem multibyte_texts_abort :
    maskToken "123é56789012" = none ∧ maskSecret "12345é789" = none ∧
      truncatedBody gatewayPage = none ∧ gatewayApi.loggedActivate (freshConfig none) = none := by
  refine ⟨by decide, by decide, truncatedBody_gatewayPage, ?_⟩
  obtain ⟨hreply, -⟩ | ⟨status, body, hreply, -, hlogged⟩ :=
    gatewayApi.loggedActivate_cases (freshConfig none)
  · cases hreply
  · obtain ⟨rfl, rfl⟩ := Prod.mk.inj (Option.some.inj hreply)
    rw [hlogged, gatewayApi.loggedRefusal_eq_none rfl truncatedBody_gatewayPage]
    rfl

end EdgeAgent.Provisioning
