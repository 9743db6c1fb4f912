import Mathlib.Data.List.Nodup
import Swk.Base64
import Swk.Utf8

/-!
# Point-of-sale configurations

A configuration travels in a URL as base64 of its JSON, encoded with the URL-safe alphabet and no
padding. `decode_config` rewrites the text to the standard alphabet, pads it, and gives it to the
same URL-safe engine, which knows neither the other alphabet nor padding.

So a configuration comes back exactly when neither is there (`pos_roundtrip_iff`): its JSON is a
whole number of groups of three bytes, and no sextet of it is 62 or 63.
-/

namespace Swk

structure PosConfig (Descriptor Currency : Type) where
  descriptor : Descriptor
  currency : Currency
  showGear : Option Bool
  showDescription : Option Bool
  deriving DecidableEq

variable {Descriptor Currency : Type}

/-- The JSON of a configuration, as the bytes of its text. -/
structure PosJson (Descriptor Currency : Type) where
  toBytes : PosConfig Descriptor Currency → List UInt8
  fromBytes : List UInt8 → Option (PosConfig Descriptor Currency)
  fromBytes_toBytes : ∀ c, fromBytes (toBytes c) = some c

namespace PosConfig

/-- The configuration that is written: a field that is its default is left out. -/
def stated (descriptor : Descriptor) (currency : Currency) (showGear showDescription : Bool) :
    PosConfig Descriptor Currency :=
  ⟨descriptor, currency, if showGear then some true else none,
    if showDescription then none else some false⟩

variable (json : PosJson Descriptor Currency)

def encodeConfig (descriptor : Descriptor) (currency : Currency)
    (showGear showDescription : Bool) : String :=
  .ofList (Base64.encode (json.toBytes (stated descriptor currency showGear showDescription)))

/-- The JSON that `encode` writes. -/
def written (c : PosConfig Descriptor Currency) : List UInt8 :=
  json.toBytes (stated c.descriptor c.currency (c.showGear.getD false)
    (c.showDescription.getD true))

def encode (c : PosConfig Descriptor Currency) : String :=
  encodeConfig json c.descriptor c.currency (c.showGear.getD false) (c.showDescription.getD true)

/-- `replace('-', "+").replace('_', "/")`. -/
def standardChar (c : Char) : Char := if c = '-' then '+' else if c = '_' then '/' else c

/-- The text that the engine is given: padded until its length is a multiple of four. -/
def rewritten (encoded : List Char) : List Char :=
  let base64 := encoded.map standardChar
  base64 ++ List.replicate ((4 - byteLen base64 % 4) % 4) '='

def withDefaults (c : PosConfig Descriptor Currency) : PosConfig Descriptor Currency :=
  { c with
    showGear := some (c.showGear.getD false)
    showDescription := some (c.showDescription.getD true) }

/-- `decode_config`, which is `PosConfig::decode`. -/
def decode (encoded : String) : Option (PosConfig Descriptor Currency) := do
  let jsonBytes ← Base64.decode (rewritten encoded.toList)
  let config ← json.fromBytes jsonBytes
  pure config.withDefaults

/-! ## What the engine makes of the rewritten text -/

theorem value_standardChar : ∀ v < 64,
    Base64.value (standardChar (Base64.char v)) = if v < 62 then some v else none := by
  decide +kernel

theorem utf8Size_standardChar : ∀ v < 64, (standardChar (Base64.char v)).utf8Size = 1 := by
  decide +kernel

theorem value_pad : Base64.value '=' = none := by decide

theorem mapM_value_append_pad (text : List Char) (n : Nat) :
    (text ++ List.replicate n '=').mapM Base64.value =
      if n = 0 then text.mapM Base64.value else none := by
  cases n with
  | zero => simp
  | succ n => simp [List.replicate_succ, value_pad]

theorem mapM_value_standardChar {vs : List Nat} (h : ∀ v ∈ vs, v < 64) :
    ((vs.map Base64.char).map standardChar).mapM Base64.value =
      if ∀ v ∈ vs, v < 62 then some vs else none := by
  induction vs with
  | nil => rfl
  | cons v vs ih =>
    obtain ⟨hv, hvs⟩ := List.forall_mem_cons.1 h
    rw [List.map_cons, List.map_cons, List.mapM_cons, value_standardChar v hv, ih hvs]
    by_cases hv62 : v < 62 <;> by_cases hvs62 : ∀ v ∈ vs, v < 62
    · have hall : ∀ w ∈ v :: vs, w < 62 := List.forall_mem_cons.2 ⟨hv62, hvs62⟩
      rw [if_pos hv62, if_pos hvs62, if_pos hall]
      rfl
    all_goals simp [hv62, hvs62]

theorem decode_rewritten (bytes : List UInt8) : Base64.decode (rewritten (Base64.encode bytes)) =
      if bytes.length % 3 = 0 ∧ ∀ v ∈ Base64.sextets bytes, v < 62 then some bytes else none := by
  have hlen : byteLen ((Base64.encode bytes).map standardChar) = (Base64.sextets bytes).length := by
    rw [byteLen_eq_length]
    · simp [Base64.encode]
    · simp only [Base64.encode, List.forall_mem_map]
      exact fun v hv => utf8Size_standardChar v (Base64.sextets_lt bytes v hv)
  have hpad : (4 - (Base64.sextets bytes).length % 4) % 4 = 0 ↔ bytes.length % 3 = 0 := by
    rw [← Base64.length_sextets_mod]
    omega
  simp only [Base64.decode, rewritten, hlen, mapM_value_append_pad, hpad]
  rw [Base64.encode, mapM_value_standardChar (Base64.sextets_lt bytes)]
  by_cases h3 : bytes.length % 3 = 0 <;> by_cases h62 : ∀ v ∈ Base64.sextets bytes, v < 62
  · rw [if_pos h3, if_pos h62, if_pos ⟨h3, h62⟩]
    exact Base64.octets_sextets bytes
  all_goals simp [h3, h62]

theorem withDefaults_stated (c : PosConfig Descriptor Currency) :
    (stated c.descriptor c.currency (c.showGear.getD false)
      (c.showDescription.getD true)).withDefaults = c.withDefaults := by
  obtain ⟨descriptor, currency, showGear, showDescription⟩ := c
  simp only [stated, withDefaults]
  cases showGear.getD false <;> cases showDescription.getD true <;> rfl

/-- **A configuration comes back, with its defaults, exactly when its JSON needs no padding and
neither of the characters in which the alphabets differ.** -/
theorem pos_roundtrip_iff (c : PosConfig Descriptor Currency) :
    decode json (encode json c) = some c.withDefaults ↔
      (written json c).length % 3 = 0 ∧ ∀ v ∈ Base64.sextets (written json c), v < 62 := by
  have hencode : encode json c = .ofList (Base64.encode (written json c)) := rfl
  rw [decode, hencode, String.toList_ofList, decode_rewritten]
  by_cases h : (written json c).length % 3 = 0 ∧ ∀ v ∈ Base64.sextets (written json c), v < 62
  · rw [if_pos h]
    refine iff_of_true ?_ h
    simp [written, json.fromBytes_toBytes, withDefaults_stated]
  · rw [if_neg h]
    exact iff_of_false (by simp) h

namespace Shop

/-- A wallet of one script, `:51`. -/
inductive Scripts
  | script51
deriving DecidableEq

inductive CurrencyCode
  | usd
  | eur
deriving DecidableEq

def field (name : String) : Option Bool → String
  | none => ""
  | some b => ",\"" ++ name ++ "\":" ++ if b then "true" else "false"

def text (c : PosConfig Scripts CurrencyCode) : String :=
  "\x7b\"d\":[\":51\"],\"c\":\"" ++ (match c.currency with
    | .usd => "USD"
    | .eur => "EUR") ++ "\"" ++ field "g" c.showGear ++ field "n" c.showDescription ++ "\x7d"

def all : List (PosConfig Scripts CurrencyCode) :=
  [.usd, .eur].flatMap fun c => [none, some false, some true].flatMap fun g =>
    [none, some false, some true].map (⟨.script51, c, g, ·⟩)

def asciiBytes (text : String) : List UInt8 := text.toList.map fun c => UInt8.ofNat c.toNat

def serde : PosJson Scripts CurrencyCode where
  toBytes c := asciiBytes (text c)
  fromBytes bytes := all.find? fun c => asciiBytes (text c) = bytes
  fromBytes_toBytes c := by
    have hmem : c ∈ all := by obtain ⟨⟨⟩, _ | _, _ | _ | _, _ | _ | _⟩ := c <;> decide
    have hnodup : (all.map fun c => asciiBytes (text c)).Nodup := by decide +kernel
    cases h : all.find? fun c' => asciiBytes (text c') = asciiBytes (text c) with
    | none => simpa using List.find?_eq_none.1 h c hmem
    | some c' =>
      have heq := List.inj_on_of_nodup_map hnodup (List.mem_of_find?_eq_some h) hmem
      exact congrArg some (heq (by simpa using List.find?_some h))

/-- The JSON of a shop that takes dollars has 23 bytes, so it is padded and does not come back. -/
theorem dollars_lost : (written serde ⟨.script51, .usd, none, none⟩).length = 23 ∧
    decode serde (encode serde ⟨.script51, .usd, none, none⟩) = none := by
  decide +kernel

end Shop

end PosConfig

end Swk
