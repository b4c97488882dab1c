import VgiWorker.Crypto.SplitTokenVault
import VgiWorker.Js.JsonProperties

/-!
# The bind fingerprint

The digest by which a split token names the bind it was minted for, and what two
binds of one fingerprint have in common.
-/

set_option autoImplicit false

namespace VgiWorker.Crypto

open VgiWorker.Js

/-- What `fingerprintInputs` reads off a bind call, with the projection that the init request
carries. A name read off the wire is well formed. -/
structure ScanBind where
  schemaPath : List Text
  functionName : Text
  args : Bytes
  settings : Bytes
  projectionIds : Option (List Int)
  functionName_wellFormed : IsWellFormed functionName

def splitTokenAadPrefix : Bytes :=
  utf8Encode (text "vgi.split_token.v1") ++ [0]

def fingerprintField (label : String) (value : Bytes) : Bytes :=
  utf8Encode (text label) ++ [0] ++ value ++ [0]

def fingerprintMessage (schemaPath : List Text) (functionName : Text)
    (args settings projection : Bytes) : Bytes :=
  splitTokenAadPrefix ++
    fingerprintField "schema_path" (utf8Encode (stringifyTexts schemaPath)) ++
    fingerprintField "function_name" (utf8Encode functionName) ++
    fingerprintField "arguments" args ++
    fingerprintField "settings" settings ++
    fingerprintField "projection_ids" projection

def bindFingerprint (crypto : Primitives) (schemaPath : List Text) (functionName : Text)
    (args settings projection : Bytes) : Bytes :=
  (crypto.sha256 (fingerprintMessage schemaPath functionName args settings projection)).take
    fingerprintLength

namespace ScanBind

/-- The message behind the fingerprint that plan and init compute: a bind call has no
projection, so it feeds in empty. -/
def message (scan : ScanBind) : Bytes :=
  fingerprintMessage scan.schemaPath scan.functionName scan.args scan.settings []

def fingerprint (crypto : Primitives) (scan : ScanBind) : Bytes :=
  bindFingerprint crypto scan.schemaPath scan.functionName scan.args scan.settings []

/-- The label of a field between the separators around it. -/
def marker (label : String) : Bytes :=
  0 :: utf8Encode (text label) ++ [0]

/-- Neither the name nor the arguments run into the label of the next field. -/
structure Delimited (scan : ScanBind) : Prop where
  functionName : EndsAt (marker "arguments") (utf8Encode scan.functionName)
  args : EndsAt (marker "settings") scan.args

/-- Two scans of one bind call. -/
structure SameBind (left right : ScanBind) : Prop where
  schemaPath : left.schemaPath = right.schemaPath
  functionName : left.functionName = right.functionName
  args : left.args = right.args
  settings : left.settings = right.settings

/-- Two digests are equal only for equal messages. -/
def NoCollision (crypto : Primitives) (left right : ScanBind) : Prop :=
  left.fingerprint crypto = right.fingerprint crypto → left.message = right.message

end ScanBind

/-! ## Reading the message -/

private theorem message_layout (scan : ScanBind) : scan.message =
    splitTokenAadPrefix ++ utf8Encode (text "schema_path") ++ [0] ++
      (utf8Encode (stringifyTexts scan.schemaPath) ++ 0 ::
        (utf8Encode (text "function_name") ++ [0] ++
          (utf8Encode scan.functionName ++ (ScanBind.marker "arguments" ++
            (scan.args ++ (ScanBind.marker "settings" ++
              (scan.settings ++ (0 :: fingerprintField "projection_ids" [])))))))) := by
  simp only [ScanBind.message, fingerprintMessage, fingerprintField, ScanBind.marker,
    List.append_assoc, List.cons_append, List.nil_append]

theorem sameBind_of_message (left right : ScanBind) (leftFree : left.Delimited)
    (rightFree : right.Delimited) (same : left.message = right.message) :
    left.SameBind right := by
  rw [message_layout, message_layout] at same
  obtain ⟨paths, rest⟩ := append_delimiter_inj 0 _ _ _ _
    (zero_not_mem_utf8Encode _ (zero_not_mem_stringifyTexts _))
    (zero_not_mem_utf8Encode _ (zero_not_mem_stringifyTexts _)) (List.append_cancel_left same)
  obtain ⟨names, rest⟩ := append_marker_inj _ _ _ _ _ leftFree.functionName rightFree.functionName
    (List.append_cancel_left rest)
  obtain ⟨args, rest⟩ := append_marker_inj _ _ _ _ _ leftFree.args rightFree.args rest
  have settings := List.append_cancel_right rest
  refine ⟨?_, ?_, args, settings⟩
  · have texts := toWellFormed_of_utf8Encode _ _ paths
    rw [isWellFormed_stringifyTexts left.schemaPath,
      isWellFormed_stringifyTexts right.schemaPath] at texts
    exact stringifyTexts_inj _ _ texts
  · have texts := toWellFormed_of_utf8Encode _ _ names
    rwa [left.functionName_wellFormed, right.functionName_wellFormed] at texts

/-- A token opens only for a scan whose fingerprint it was built with. -/
private theorem fingerprint_of_opened (crypto : Primitives) (request : SplitTokenRequest)
    (nonce : Nonce) (token payload expected : Bytes) (presented : SplitTokenPresented)
    (built : buildSplitToken crypto request nonce = .ok token)
    (asks : presented.expectedFingerprint = some expected)
    (opened : openSplitToken crypto token presented = .ok payload) :
    request.fingerprint = expected := by
  obtain ⟨length, bound, tokenIs⟩ := buildSplitToken_ok crypto request nonce token built
  obtain ⟨fingerprint, anchor, rest, length', bound', tokenIs', matching, _, _⟩ :=
    openSplitToken_ok crypto token presented payload opened
  rw [tokenIs] at tokenIs'
  obtain ⟨_, fingerprints, _, _⟩ :=
    splitTokenBody_injective _ _ _ _ _ _ _ _ length length' bound bound' tokenIs'
  exact fingerprints.trans (matching expected asks).symm

/-- Without a collision, scans of one fingerprint are of one bind call, and a split token opens
only in a scan of the bind call it was minted for. -/
theorem fingerprint_separates_binds (crypto : Primitives) (left right : ScanBind)
    (leftFree : left.Delimited) (rightFree : right.Delimited)
    (noCollision : ScanBind.NoCollision crypto left right) :
    (left.fingerprint crypto = right.fingerprint crypto → left.SameBind right) ∧
      ∀ (request : SplitTokenRequest) (nonce : Nonce) (token payload : Bytes)
        (presented : SplitTokenPresented),
        request.fingerprint = left.fingerprint crypto →
        buildSplitToken crypto request nonce = .ok token →
        presented.expectedFingerprint = some (right.fingerprint crypto) →
        openSplitToken crypto token presented = .ok payload →
          left.SameBind right := by
  have separates (same : left.fingerprint crypto = right.fingerprint crypto) :
      left.SameBind right :=
    sameBind_of_message left right leftFree rightFree (noCollision same)
  refine ⟨separates, ?_⟩
  intro request nonce token payload presented minted built asks opened
  have expected := fingerprint_of_opened crypto request nonce token payload _ presented built asks
    opened
  exact separates (minted.symm.trans expected)

def sampleScan (args settings : Bytes) (projectionIds : Option (List Int)) : ScanBind where
  schemaPath := [text "main"]
  functionName := text "scan"
  args := args
  settings := settings
  projectionIds := projectionIds
  functionName_wellFormed := isWellFormed_text "scan"

private instance (marker field : Bytes) : Decidable (EndsAt marker field) :=
  inferInstanceAs (Decidable (¬marker <:+: field ++ marker.dropLast))

theorem fingerprint_separates_binds_sample :
    (sampleScan [1, 0, 2] [3] none).SameBind (sampleScan [1, 0, 2] [3] (some [0])) :=
  (fingerprint_separates_binds samplePrimitives (sampleScan [1, 0, 2] [3] none)
    (sampleScan [1, 0, 2] [3] (some [0])) ⟨by decide +kernel, by decide +kernel⟩
    ⟨by decide +kernel, by decide +kernel⟩ (fun _ => rfl)).1 rfl

/-- Scans that differ in the projection alone have one fingerprint, and so have some that cut
the bytes of the arguments and the settings elsewhere. -/
theorem fingerprint_forgets : (∃ left right : ScanBind, left.projectionIds ≠ right.projectionIds ∧
      ∀ crypto, left.fingerprint crypto = right.fingerprint crypto) ∧
    ∃ left right : ScanBind, left.args ≠ right.args ∧ left.settings ≠ right.settings ∧
      ∀ crypto, left.fingerprint crypto = right.fingerprint crypto := by
  refine ⟨⟨sampleScan [1] [2] none, sampleScan [1] [2] (some [0]), nofun, fun _ => rfl⟩, ?_⟩
  refine ⟨sampleScan ([1] ++ ScanBind.marker "settings" ++ [2]) [3] none,
    sampleScan [1] ([2] ++ ScanBind.marker "settings" ++ [3]) none, ?_, ?_, fun crypto => ?_⟩
  · decide +kernel
  · decide +kernel
  · have same : (sampleScan ([1] ++ ScanBind.marker "settings" ++ [2]) [3] none).message =
        (sampleScan [1] ([2] ++ ScanBind.marker "settings" ++ [3]) none).message := by
      decide +kernel
    exact congrArg (fun message => (crypto.sha256 message).take fingerprintLength) same

end VgiWorker.Crypto
