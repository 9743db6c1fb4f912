import Swk.Contract
import Swk.HashMap
import Swk.StateExcept
import Swk.Utf8

/-!
# AMP0 login: the server's data and panics

At login the server returns a key, a blob and the path of its own key. The client decrypts the key,
then the blob, reads two fields of the blob, and writes the descriptor of the wallet. Every stage
cuts its data at fixed places, and a place outside the data is a panic, not an error: the conversion
to an array, which could fail with "Invalid IV" or "Invalid nonce", comes after the cut.

**Theorem (`login_survives_iff`).** None of the three calls panics exactly when the key, the blob
and its plaintext are long enough to be cut, the slip77 key ends in characters of 64 bytes in all,
and the path is a whole number of pairs of bytes.

A call is an `Except` whose errors include the panic, so surviving passes through a bind
(`survives_bind`) and each stage gives one condition. The subaccount gives none. Its hardened index
overflows from `2 ^ 31` on, but the path of the server's key, parsed before, has already refused it.
-/

namespace Swk.Amp0

/-- The variants of `Error` that these calls return. -/
inductive Error where
  | generic (message : String)
  | aes (message : String)
  | stdIOError (message : String)
  | hexToBytesError
  | rmpvDecodeError (message : String)
  | rmpvExtError (message : String)
  | bitcoinBIP32Error (message : String)
  deriving DecidableEq

inductive Stop where
  | error (e : Error)
  | panic
  deriving DecidableEq

abbrev Call := Except Stop

variable {α β : Type}

/-! ## Calls that may panic -/

/-- `data[..n]`. -/
def sliceTo (n : Nat) (data : List α) : Call (List α) :=
  if n ≤ data.length then .ok (data.take n) else .error .panic

/-- `data[n..]`. -/
def sliceFrom (n : Nat) (data : List α) : Call (List α) :=
  if n ≤ data.length then .ok (data.drop n) else .error .panic

/-- `data[i]`. -/
def index (data : List α) (i : Nat) : Call α := okOr data[i]? .panic

def subUsize (a b : Nat) : Call Nat := if b ≤ a then .ok (a - b) else .error .panic

def addU32 (a b : UInt32) : Call UInt32 :=
  if a.toNat + b.toNat < 4294967296 then .ok (a + b) else .error .panic

/-- The text from a byte on, if that byte starts a character or is the end. -/
def dropBytes (n : Nat) : List Char → Option (List Char)
  | [] => if n = 0 then some [] else none
  | c :: cs =>
    if n = 0 then some (c :: cs)
    else if c.utf8Size ≤ n then dropBytes (n - c.utf8Size) cs else none

/-- `text[n..]`. -/
def strFrom (n : Nat) (text : String) : Call String :=
  (okOr (dropBytes n text.toList) .panic).map String.ofList

/-- A library call whose failure is returned as an error of the given kind. -/
def attempt (x : Except String α) (e : String → Error) : Call α := x.mapError fun m => .error (e m)

/-- `hex::_decode`. -/
def hexDecode (text : String) : Call (List UInt8) := okOr (fromHex text) (.error .hexToBytesError)

/-- **The call returns**, a value or an error. -/
def Survives (x : Call α) : Prop := x ≠ .error .panic

instance (x : Call α) : Decidable (Survives x) :=
  match x with
  | .ok _ => .isTrue fun h => by cases h
  | .error (.error _) => .isTrue fun h => by cases h
  | .error .panic => .isFalse fun h => h rfl

@[simp] theorem survives_ok (a : α) : Survives (.ok a : Call α) := fun h => by cases h

@[simp] theorem survives_pure (a : α) : Survives (pure a : Call α) := survives_ok a

@[simp] theorem not_survives_panic : ¬ Survives (.error .panic : Call α) := fun h => h rfl

@[simp] theorem survives_error (e : Error) : Survives (.error (.error e) : Call α) :=
  fun h => by cases h

variable {x : Call α} {f : α → Call β} {data : List α} {gaitPath : String} {n : UInt32}

theorem survives_bind :
    Survives (x >>= f) ↔ Survives x ∧ ∀ a, x = .ok a → Survives (f a) := by
  rcases x with (e | _) | a <;> simp [except_ok_bind, except_error_bind]

@[simp] theorem survives_map {f : α → β} : Survives (f <$> x) ↔ Survives x := by
  rcases x with (e | _) | a <;> simp [Functor.map, Except.map]

@[simp] theorem survives_attempt (x : Except String α) (e : String → Error) :
    Survives (attempt x e) := by
  cases x <;> simp [attempt, Except.mapError]

theorem survives_attempt_bind {x : Except String α} {e : String → Error} :
    Survives (attempt x e >>= f) ↔ ∀ a, x = .ok a → Survives (f a) := by
  cases x <;> simp [attempt, Except.mapError, except_ok_bind, except_error_bind]

theorem survives_okOr_bind {x : Option α} {e : Error} :
    Survives (okOr x (.error e) >>= f) ↔ ∀ a, x = some a → Survives (f a) := by
  cases x <;> simp [okOr, except_ok_bind, except_error_bind]

theorem survives_sliceTo_bind {n : Nat} {f : List α → Call β} :
    Survives (sliceTo n data >>= f) ↔ n ≤ data.length ∧ Survives (f (data.take n)) := by
  unfold sliceTo
  split <;> simp [*, except_ok_bind, except_error_bind]

theorem survives_sliceFrom_bind {n : Nat} {f : List α → Call β} :
    Survives (sliceFrom n data >>= f) ↔ n ≤ data.length ∧ Survives (f (data.drop n)) := by
  unfold sliceFrom
  split <;> simp [*, except_ok_bind, except_error_bind]

/-! ### The last bytes of a text -/

def EndsIn64 (cs : List Char) : Prop := ∃ start last, cs = start ++ last ∧ byteLen last = 64

theorem dropBytes_append (start last : List Char) :
    dropBytes (byteLen start) (start ++ last) = some last := by
  induction start with
  | nil => cases last <;> simp [dropBytes, byteLen]
  | cons c start ih => simp [dropBytes, byteLen, (Char.utf8Size_pos c).ne', ih]

theorem exists_append_of_dropBytes {n : Nat} {cs last : List Char}
    (h : dropBytes n cs = some last) :
    ∃ start, cs = start ++ last ∧ byteLen start = n := by
  induction cs generalizing n with
  | nil =>
    refine ⟨[], ?_⟩
    simp only [dropBytes, Option.ite_none_right_eq_some, Option.some.injEq] at h
    exact ⟨h.2, h.1.symm⟩
  | cons c cs ih =>
    by_cases hn : n = 0
    · refine ⟨[], ?_⟩
      simpa [dropBytes, hn, byteLen] using h
    · simp only [dropBytes, if_neg hn, Option.ite_none_right_eq_some] at h
      obtain ⟨start, rfl, hstart⟩ := ih h.2
      exact ⟨c :: start, rfl, by simp only [byteLen, hstart]; omega⟩

/-- The subtraction and the cut of `set_fields`. -/
theorem survives_lastBytes {key : String} :
    Survives (subUsize (byteLen key.toList) 64 >>= fun start => strFrom start key) ↔
      EndsIn64 key.toList := by
  unfold subUsize strFrom EndsIn64
  split
  case isTrue hle =>
    rw [except_ok_bind]
    cases h : dropBytes (byteLen key.toList - 64) key.toList with
    | none =>
      simp only [okOr, Except.map, not_survives_panic, false_iff]
      rintro ⟨start, last, heq, hlast⟩
      rw [heq, byteLen_append, hlast, Nat.add_sub_cancel, dropBytes_append] at h
      cases h
    | some last =>
      obtain ⟨start, heq, hstart⟩ := exists_append_of_dropBytes h
      simp only [okOr, Except.map, survives_ok, true_iff]
      refine ⟨start, last, heq, ?_⟩
      rw [heq, byteLen_append] at hle hstart
      omega
  case isFalse hlt =>
    simp only [except_error_bind, not_survives_panic, false_iff]
    rintro ⟨start, last, heq, hlast⟩
    rw [heq, byteLen_append, hlast] at hlt
    omega

/-! ## The key -/

/-- The ciphers, the decoders of bytes and BIP32, with the text of an error. Only the last field
says anything of them: an index of `2 ^ 31` or more is not one of a normal child. -/
structure Libraries (Network Xpub Value Path : Type) where
  /-- PBKDF2 of the user's credentials. -/
  woAesKey (username password : String) : List UInt8
  decryptPaddedVec (key iv data : List UInt8) : Except String (List UInt8)
  base64Decode (text : String) : Except String (List UInt8)
  decrypt (key nonce data : List UInt8) : Except String (List UInt8)
  zlibDecode (data : List UInt8) : Except String (List UInt8)
  readValue (data : List UInt8) : Except String Value
  /-- The maps `slip77key` and `watchonly` of a blob. -/
  blobFromValue (value : Value) : Except String (HashMap String String × HashMap String Value)
  xpubsFromValue (value : Value) : Except String (List (Xpub × List UInt32))
  serverMasterXpub (network : Network) : Xpub
  fingerprint (xpub : Xpub) : String
  xpubText (xpub : Xpub) : String
  pathFromStr (text : String) : Except String Path
  derivePub (xpub : Xpub) (path : Path) : Except String Xpub
  pathFromStr_index : ∀ (parents : String) (n : Nat), 2147483648 ≤ n →
    ∃ e, pathFromStr (parents ++ "/" ++ toString n) = .error e

variable {Network Xpub Value Path : Type} (lib : Libraries Network Xpub Value Path)

def decryptBlobKey (username password woBlobKeyHex : String) : Call (List UInt8) := do
  let data ← hexDecode woBlobKeyHex
  let iv ← sliceTo 16 data
  let rest ← sliceFrom 16 data
  attempt (lib.decryptPaddedVec (lib.woAesKey username password) iv rest) .generic

def KeyFits (woBlobKeyHex : String) : Prop :=
  ∀ data, fromHex woBlobKeyHex = some data → 16 ≤ data.length

theorem survives_decryptBlobKey {username password woBlobKeyHex : String} :
    Survives (decryptBlobKey lib username password woBlobKeyHex) ↔ KeyFits woBlobKeyHex := by
  simp [decryptBlobKey, hexDecode, survives_okOr_bind, survives_sliceTo_bind,
    survives_sliceFrom_bind, KeyFits]

/-! ## The blob -/

/-- `Blob`, the fields that are read here. -/
structure Blob (Xpub Value : Type) where
  slip77key : HashMap String String
  watchonly : HashMap String Value
  /-- In the order of the iteration. -/
  xpubs : List (Xpub × List UInt32) := []
  slip77Key : String := ""

/-- `blob_cipher`, whose cipher is the key. -/
def blobCipher (encKey : List UInt8) : Call (List UInt8) :=
  if encKey.length = 32 then .ok encKey
  else .error (.error (.generic "Invalid encryption key length"))

def decryptBlob (encKey : List UInt8) (blob64 : String) : Call (List UInt8) := do
  let woBlob ← attempt (lib.base64Decode blob64) .generic
  let cipher ← blobCipher encKey
  let nonce ← sliceTo 12 woBlob
  let rest ← sliceFrom 12 woBlob
  attempt (lib.decrypt cipher nonce rest) .aes

def parseValue (blob : List UInt8) : Call Value := do
  let compressed ← sliceFrom 8 blob
  let v ← attempt (lib.zlibDecode compressed) .stdIOError
  attempt (lib.readValue v) .rmpvDecodeError

def Blob.setFields (blob : Blob Xpub Value) : Call (Blob Xpub Value) := do
  let slip77Key ← okOr (blob.slip77key.lookup "key") (.error (.generic "Unexpected value"))
  let last ← subUsize (byteLen slip77Key.toList) 64 >>= fun start => strFrom start slip77Key
  let xpubs ← okOr (blob.watchonly.lookup "xpubs") (.error (.generic "Unexpected value"))
  let xpubs ← attempt (lib.xpubsFromValue xpubs) .rmpvExtError
  pure { blob with slip77Key := last, xpubs }

def Blob.fromBase64 (blob64 : String) (encKey : List UInt8) : Call (Blob Xpub Value) := do
  let plaintext ← decryptBlob lib encKey blob64
  let value ← parseValue lib plaintext
  let maps ← attempt (lib.blobFromValue value) .rmpvExtError
  Blob.setFields lib { slip77key := maps.1, watchonly := maps.2 }

def PlaintextFits (plaintext : List UInt8) : Prop :=
  8 ≤ plaintext.length ∧
    ∀ v, lib.zlibDecode (plaintext.drop 8) = .ok v → ∀ value, lib.readValue v = .ok value →
      ∀ maps, lib.blobFromValue value = .ok maps →
        ∀ key, maps.1.lookup "key" = some key → EndsIn64 key.toList

/-- What the blob has to be, for a key of 32 bytes. -/
def BlobFits (encKey : List UInt8) (blob64 : String) : Prop :=
  ∀ woBlob, lib.base64Decode blob64 = .ok woBlob → encKey.length = 32 → 12 ≤ woBlob.length ∧
      ∀ plaintext, lib.decrypt encKey (woBlob.take 12) (woBlob.drop 12) = .ok plaintext →
        PlaintextFits lib plaintext

theorem survives_setFields {blob : Blob Xpub Value} : Survives (blob.setFields lib) ↔
      ∀ key, blob.slip77key.lookup "key" = some key → EndsIn64 key.toList := by
  rw [Blob.setFields, survives_okOr_bind]
  refine forall₂_congr fun key _ => ?_
  rw [survives_bind, survives_lastBytes, and_iff_left]
  intro last _
  rw [survives_okOr_bind]
  intro xpubs _
  exact survives_attempt_bind.2 fun _ _ => survives_pure _

theorem survives_blobCipher_bind {encKey : List UInt8} {f : List UInt8 → Call α} :
    Survives (blobCipher encKey >>= f) ↔ (encKey.length = 32 → Survives (f encKey)) := by
  unfold blobCipher
  split <;> simp [*, except_ok_bind, except_error_bind]

theorem survives_fromBase64 {blob64 : String} {encKey : List UInt8} :
    Survives (Blob.fromBase64 lib blob64 encKey) ↔ BlobFits lib encKey blob64 := by
  simp only [Blob.fromBase64, decryptBlob, parseValue, bind_assoc, survives_attempt_bind,
    survives_blobCipher_bind, survives_sliceTo_bind, survives_sliceFrom_bind, survives_setFields]
  simp only [and_self_left, BlobFits, PlaintextFits]

/-! ## The descriptor -/

/-- `chunks(2)`. -/
def chunks2 : List α → List (List α)
  | [] => []
  | [a] => [[a]]
  | a :: b :: l => [a, b] :: chunks2 l

def chunkText (chunk : List UInt8) : Call String := do
  let high ← index chunk 0
  let low ← index chunk 1
  pure (toString (256 * high.toNat + low.toNat))

def deriveServerXpub (network : Network) (gaitPath : String) (ampSubaccount : UInt32) :
    Call String := do
  let xpub := lib.serverMasterXpub network
  let gaitPathBytes ← hexDecode gaitPath
  let gaitPath ← (chunks2 gaitPathBytes).mapM chunkText
  let serverPath := "3/" ++ "/".intercalate gaitPath ++ "/" ++ toString ampSubaccount.toNat
  let derivationPath ← attempt (lib.pathFromStr serverPath) .bitcoinBIP32Error
  let derivedXpub ← attempt (lib.derivePub xpub derivationPath) .bitcoinBIP32Error
  pure ("[" ++ lib.fingerprint xpub ++ "/" ++ serverPath ++ "]" ++ lib.xpubText derivedXpub)

/-- `Blob::find_xpub`, over the entries of the map. -/
def findXpub (ampSubaccount : UInt32) : List (Xpub × List UInt32) → Call (Option Xpub)
  | [] => pure none
  | (k, [cn1, cn2]) :: l =>
    if cn1 = 3 + 2147483648 then do
      let hardened ← addU32 ampSubaccount 2147483648
      if cn2 = hardened then pure (some k) else findXpub ampSubaccount l
    else findXpub ampSubaccount l
  | _ :: l => findXpub ampSubaccount l

def Blob.findMasterXpub (blob : Blob Xpub Value) : Option Xpub :=
  (blob.xpubs.find? fun e => e.2.isEmpty).map (·.1)

def ampDescriptor (blob : Blob Xpub Value) (ampSubaccount : UInt32) (network : Network)
    (gaitPath : String) : Call String := do
  let serverXpub ← deriveServerXpub lib network gaitPath ampSubaccount
  let masterXpub ← okOr blob.findMasterXpub (.error (.generic "Missing master xpub"))
  let account := toString ampSubaccount.toNat
  let userKeyorigin := "[" ++ lib.fingerprint masterXpub ++ "/3h/" ++ account ++ "h]"
  let found ← findXpub ampSubaccount blob.xpubs
  let userXpub ← okOr found (.error (.generic "Invalid AMP subaccount"))
  pure ("ct(slip77(" ++ blob.slip77Key ++ "),elsh(wsh(multi(2," ++ serverXpub ++ "/*," ++
    userKeyorigin ++ lib.xpubText userXpub ++ "/1/*))))")

def GaitFits (gaitPath : String) : Prop :=
  ∀ bytes, fromHex gaitPath = some bytes → bytes.length % 2 = 0

theorem survives_chunkTexts (bytes : List UInt8) :
    Survives ((chunks2 bytes).mapM chunkText) ↔ bytes.length % 2 = 0 := by
  induction bytes using chunks2.induct with
  | case1 => simp [chunks2]
  | case2 a => simp [chunks2, chunkText, index, okOr, except_ok_bind]
  | case3 a b l ih =>
    simp only [chunks2, chunkText, index, okOr, List.mapM_cons]
    simp [ih, except_ok_bind, Nat.add_assoc]

theorem survives_deriveServerXpub {network : Network} :
    Survives (deriveServerXpub lib network gaitPath n) ↔ GaitFits gaitPath := by
  rw [deriveServerXpub, hexDecode, survives_okOr_bind]
  refine forall₂_congr fun bytes _ => ?_
  rw [survives_bind, survives_chunkTexts, and_iff_left]
  intro texts _
  rw [survives_attempt_bind]
  intro path _
  exact survives_attempt_bind.2 fun _ _ => survives_pure _

theorem lt_of_deriveServerXpub {network : Network} {text : String}
    (h : deriveServerXpub lib network gaitPath n = .ok text) : n.toNat < 2147483648 := by
  rw [deriveServerXpub, except_bind_ok_iff] at h
  obtain ⟨bytes, -, h⟩ := h
  obtain ⟨texts, -, h⟩ := except_bind_ok_iff.1 h
  obtain ⟨path, hpath, -⟩ := except_bind_ok_iff.1 h
  by_contra hle
  obtain ⟨e, he⟩ := lib.pathFromStr_index ("3/" ++ "/".intercalate texts) n.toNat (by omega)
  rw [attempt, mapError_ok_iff, he] at hpath
  cases hpath

theorem survives_findXpub (hn : n.toNat < 2147483648) (xpubs : List (Xpub × List UInt32)) :
    Survives (findXpub n xpubs) := by
  have hadd : addU32 n 2147483648 = .ok (n + 2147483648) := if_pos (by simpa using by omega)
  fun_induction findXpub n xpubs with
  | case1 => simp
  | case2 k cn2 l ih =>
    rw [hadd, except_ok_bind]
    split
    · simp
    · exact ih
  | case3 k cn1 cn2 l _ ih => exact ih
  | case4 e l _ ih => exact ih

theorem survives_ampDescriptor {blob : Blob Xpub Value} {network : Network} :
    Survives (ampDescriptor lib blob n network gaitPath) ↔
      GaitFits gaitPath := by
  rw [ampDescriptor, survives_bind, survives_deriveServerXpub, and_iff_left]
  intro serverXpub hserver
  rw [survives_okOr_bind]
  intro masterXpub _
  refine survives_bind.2 ⟨survives_findXpub (lt_of_deriveServerXpub lib hserver) _, ?_⟩
  intro found _
  exact survives_okOr_bind.2 fun _ _ => survives_pure _

/-- **Login survives what fits, and nothing else.** Whatever the libraries answer, the three calls
return exactly when the key, the blob and the path can be cut where the code cuts them. The blob of
the descriptor and the subaccount are arbitrary. -/
theorem login_survives_iff (username password woBlobKeyHex blob64 gaitPath : String)
    (encKey : List UInt8) (blob : Blob Xpub Value) (ampSubaccount : UInt32) (network : Network) :
    (Survives (decryptBlobKey lib username password woBlobKeyHex) ∧
      Survives (Blob.fromBase64 lib blob64 encKey) ∧
      Survives (ampDescriptor lib blob ampSubaccount network gaitPath)) ↔
    KeyFits woBlobKeyHex ∧ BlobFits lib encKey blob64 ∧ GaitFits gaitPath := by
  rw [survives_decryptBlobKey, survives_fromBase64, survives_ampDescriptor]

def plain : Libraries Unit Unit Unit Unit where
  woAesKey _ _ := []
  decryptPaddedVec _ _ data := .ok data
  base64Decode text := .ok (text.toList.flatMap String.utf8EncodeChar)
  decrypt _ _ data := .ok data
  zlibDecode data := .ok data
  readValue _ := .ok ()
  blobFromValue _ := .ok (∅, ∅)
  xpubsFromValue _ := .ok []
  serverMasterXpub _ := ()
  fingerprint _ := ""
  xpubText _ := ""
  pathFromStr _ := .error "invalid child number format"
  derivePub _ _ := .ok ()
  pathFromStr_index _ _ _ := ⟨_, rfl⟩

/-- An empty key, an empty blob and a path of one byte: each call panics. -/
theorem login_panics : ¬ Survives (decryptBlobKey plain "" "" "") ∧
      ¬ Survives (Blob.fromBase64 plain "" (List.replicate 32 0)) ∧
      ¬ Survives (ampDescriptor plain ⟨∅, ∅, [], ""⟩ 0 () "00") := by
  decide

end Swk.Amp0
