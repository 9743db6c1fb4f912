import Mathlib.Data.List.Basic
import Mathlib.Tactic.Ring

/-!
# Self-delimiting byte codecs

A decoder consumes a byte list from the front and hands back what it did not read. Everything
the development needs to know about a format is one relation, `Decodes p bytes a`: whatever
follows them, `p` reads exactly `bytes` and returns `a`. It composes along `>>=` the way the
encoder concatenates, so a round trip is proved by walking the encoder.

Main results:

* `Decodes.bind` and `Decodes.readN`: sequencing and counted loops;
* `Decodes.unique`: what two encodings have in common they decode to, hence injectivity;
* `decodes_readVarint`: the compact size integer of Bitcoin's formats.
-/

namespace Swk

open List

abbrev Bytes := List UInt8

/-- A decoder: reads from the front of the input, may fail. -/
abbrev Parser (ε α : Type) := StateT Bytes (Except ε) α

variable {ε α β : Type}

/-! ## What a decoder reads -/

/-- `p` reads exactly `bytes`, whatever comes after them, and returns `a`. -/
def Decodes (p : Parser ε α) (bytes : Bytes) (a : α) : Prop :=
  ∀ rest, p.run (bytes ++ rest) = .ok (a, rest)

theorem Decodes.pure (a : α) : Decodes (Pure.pure a : Parser ε α) [] a := fun _ => rfl

variable {p : Parser ε α} {f : α → Parser ε β} {bs : Bytes} {a : α} (eof : ε) (n : Nat)
  (nonMinimal : ε)

variable {b : β} {enc : α → Bytes} {as : List α} {v : Nat}

theorem Decodes.bind {bs' : Bytes} (hp : Decodes p bs a) (hf : Decodes (f a) bs' b) :
    Decodes (p >>= f) (bs ++ bs') b := by
  intro rest
  have hstep : (p >>= f).run ((bs ++ bs') ++ rest) = (f a).run (bs' ++ rest) := by
    rw [StateT.run_bind, append_assoc, hp]
    rfl
  rw [hstep, hf]

/-- A step that reads nothing more: a check, or building the value. -/
theorem Decodes.bind_nil (hp : Decodes p bs a) (hf : Decodes (f a) [] b) :
    Decodes (p >>= f) bs b := by
  have h := hp.bind hf
  rwa [append_nil] at h

/-- A check before reading on. -/
theorem Decodes.nil_bind (hp : Decodes p [] a) (hf : Decodes (f a) bs b) : Decodes (p >>= f) bs b :=
  hp.bind hf

theorem Decodes.map {f : α → β} (hp : Decodes p bs a) :
    Decodes (do let x ← p; Pure.pure (f x)) bs (f a) :=
  hp.bind_nil (.pure (f a))

theorem Decodes.run_eq (hp : Decodes p bs a) : p.run bs = .ok (a, []) := by
  have h := hp []
  rwa [append_nil] at h

/-- **Equal encodings decode to equal values.** -/
theorem Decodes.unique {a' : α} (h : Decodes p bs a) (h' : Decodes p bs a') : a = a' := by
  have heq := (h []).symm.trans (h' [])
  cases heq
  rfl

/-! ## Counted loops -/

/-- Run a decoder `n` times and collect the results. -/
def readN (p : Parser ε α) : Nat → Parser ε (List α)
  | 0 => Pure.pure []
  | n + 1 => do
      let a ← p
      let as ← readN p n
      Pure.pure (a :: as)

/-- A loop over a list that was written element by element reads the list back. -/
theorem Decodes.readN (hp : ∀ a ∈ as, Decodes p (enc a) a) :
    Decodes (Swk.readN p as.length) (as.flatMap enc) as := by
  induction as with
  | nil => exact .pure []
  | cons a as ih =>
    have htail := ih fun x hx => hp x (mem_cons_of_mem _ hx)
    rw [flatMap_cons]
    exact (hp a mem_cons_self).bind htail.map

/-! ## Bytes and little-endian integers -/

/-- Read exactly `n` bytes. -/
def takeBytes : Parser ε Bytes := fun bs =>
  if n ≤ bs.length then .ok (bs.take n, bs.drop n) else .error eof

theorem decodes_takeBytes {n : Nat} (h : bs.length = n) : Decodes (takeBytes eof n) bs bs := by
  intro rest
  subst h
  have hle : bs.length ≤ (bs ++ rest).length := by simp
  show takeBytes eof bs.length (bs ++ rest) = _
  rw [takeBytes, if_pos hle, take_left, drop_left]

/-- The `n` low bytes of `v`, least significant first. -/
def leBytes : Nat → Nat → Bytes
  | 0, _ => []
  | n + 1, v => UInt8.ofNat v :: leBytes n (v / 256)

/-- The number a little-endian byte string stands for. -/
def ofLeBytes : Bytes → Nat
  | [] => 0
  | b :: bs => b.toNat + 256 * ofLeBytes bs

@[simp] theorem length_leBytes (v : Nat) : (leBytes n v).length = n := by
  induction n generalizing v with
  | zero => rfl
  | succ n ih => rw [leBytes, length_cons, ih]

theorem ofLeBytes_leBytes {n : Nat} (h : v < 256 ^ n) : ofLeBytes (leBytes n v) = v := by
  induction n generalizing v with
  | zero => simp only [pow_zero, Nat.lt_one_iff] at h; rw [h]; rfl
  | succ n ih =>
    have hdiv : v / 256 < 256 ^ n := by
      rw [Nat.div_lt_iff_lt_mul (by norm_num)]
      rwa [pow_succ] at h
    have hlow : (UInt8.ofNat v).toNat = v % 256 := UInt8.toNat_ofNat'
    rw [leBytes, ofLeBytes, ih hdiv, hlow]
    omega

/-- Read an `n` byte little-endian number. -/
def readLe : Parser ε Nat := do
  let bs ← takeBytes eof n
  Pure.pure (ofLeBytes bs)

theorem decodes_readLe {n : Nat} (h : v < 256 ^ n) : Decodes (readLe eof n) (leBytes n v) v := by
  have hread := (decodes_takeBytes eof (length_leBytes n v)).map (f := ofLeBytes)
  rwa [ofLeBytes_leBytes h] at hread

/-! ## Compact size integers -/

/-- `emit_varint`: one byte up to `0xfc`, then a marker byte and 2, 4 or 8 bytes. -/
def emitVarint (v : UInt64) : Bytes :=
  if v.toNat ≤ 0xfc then leBytes 1 v.toNat
  else if v.toNat ≤ 0xffff then 0xfd :: leBytes 2 v.toNat
  else if v.toNat ≤ 0xffffffff then 0xfe :: leBytes 4 v.toNat
  else 0xff :: leBytes 8 v.toNat

/-- The tail of a marked varint: `n` bytes holding at least `least`, or it was not minimal. -/
def readMarked (n least : Nat) : Parser ε UInt64 := do
  let x ← readLe eof n
  if x < least then throw nonMinimal else Pure.pure (UInt64.ofNat x)

/-- `read_varint`, which rejects an encoding longer than needed. -/
def readVarint : Parser ε UInt64 := do
  let tag ← readLe eof 1
  if tag = 0xff then readMarked eof nonMinimal 8 0x100000000
  else if tag = 0xfe then readMarked eof nonMinimal 4 0x10000
  else if tag = 0xfd then readMarked eof nonMinimal 2 0xfd
  else Pure.pure (UInt64.ofNat tag)

theorem decodes_readMarked {n least : Nat} {v : UInt64} (hv : v.toNat < 256 ^ n)
    (hle : least ≤ v.toNat) :
    Decodes (readMarked eof nonMinimal n least) (leBytes n v.toNat) v := by
  refine (decodes_readLe eof hv).bind_nil ?_
  rw [if_neg (by omega), UInt64.ofNat_toNat]
  exact .pure v

theorem decodes_readVarint (v : UInt64) : Decodes (readVarint eof nonMinimal) (emitVarint v) v := by
  have htag (t : Nat) (ht : t < 256) : Decodes (readLe eof 1) [UInt8.ofNat t] t :=
    decodes_readLe eof (n := 1) (by omega)
  have hmax : v.toNat < 2 ^ 64 := v.toNat_lt
  unfold emitVarint
  -- the four ranges of the encoder are the four branches of the decoder
  split_ifs with h1 h2 h3
  · refine (decodes_readLe eof (n := 1) (by omega)).bind_nil ?_
    rw [if_neg (by omega), if_neg (by omega), if_neg (by omega), UInt64.ofNat_toNat]
    exact .pure v
  · exact (htag 0xfd (by omega)).bind (decodes_readMarked eof nonMinimal (by omega) (by omega))
  · exact (htag 0xfe (by omega)).bind (decodes_readMarked eof nonMinimal (by omega) (by omega))
  · exact (htag 0xff (by omega)).bind (decodes_readMarked eof nonMinimal (by omega) (by omega))

/-! ## Length-prefixed lists -/

/-- A list: its length as a varint, then its elements. -/
def emitList (enc : α → Bytes) (as : List α) : Bytes :=
  emitVarint (UInt64.ofNat as.length) ++ as.flatMap enc

/-- Read a length, then that many elements. -/
def readList (p : Parser ε α) : Parser ε (List α) := do
  let len ← readVarint eof nonMinimal
  readN p len.toNat

theorem decodes_readList (hlen : as.length < 2 ^ 64) (hp : ∀ a ∈ as, Decodes p (enc a) a) :
    Decodes (readList eof nonMinimal p) (emitList enc as) as := by
  refine (decodes_readVarint eof nonMinimal _).bind ?_
  rw [UInt64.toNat_ofNat_of_lt' hlen]
  exact .readN hp

/-! ## Big-endian words -/

/-- The `n` bytes of `v`, most significant first. -/
def beBytes (v : Nat) : Bytes := (leBytes n v).reverse

/-- Read an `n` byte big-endian number. -/
def readBe : Parser ε Nat := do
  let bs ← takeBytes eof n
  Pure.pure (ofLeBytes bs.reverse)

theorem decodes_readBe {n : Nat} (h : v < 256 ^ n) : Decodes (readBe eof n) (beBytes n v) v := by
  have hlen : (beBytes n v).length = n := by rw [beBytes, length_reverse, length_leBytes]
  have hread := (decodes_takeBytes eof hlen).map (f := fun bs => ofLeBytes bs.reverse)
  rwa [beBytes, reverse_reverse, ofLeBytes_leBytes h] at hread

/-! ## Lawful codecs -/

/-- An encoder with a decoder that reads back the values it takes, and stops where it stopped. -/
structure Codec (ε α : Type) where
  encode : α → Bytes
  decode : Parser ε α
  takes : α → Bool
  decodes : ∀ a, takes a = true → Decodes decode (encode a) a

namespace Codec

/-- A codec of all values. -/
def total (encode : α → Bytes) (decode : Parser ε α) (h : ∀ a, Decodes decode (encode a) a) :
    Codec ε α := ⟨encode, decode, fun _ => true, fun a _ => h a⟩

/-- A value with nothing in it. -/
def unit : Codec ε Unit := total (fun _ => []) (Pure.pure ()) fun _ => .pure ()

variable (eof : ε) (c : Codec ε α)

theorem decodes_word (n : Nat) (v : BitVec (8 * n)) : Decodes (do
    let v ← readBe eof n
    Pure.pure (BitVec.ofNat (8 * n) v)) (beBytes n v.toNat) v := by
  have hlt : v.toNat < 256 ^ n := by
    have hpow : (256 : Nat) ^ n = 2 ^ (8 * n) := by
      rw [pow_mul]
      norm_num
    rw [hpow]
    exact v.isLt
  have h := (decodes_readBe eof hlt).map (f := BitVec.ofNat (8 * n))
  rwa [BitVec.ofNat_toNat, BitVec.setWidth_eq] at h

/-- A word of `8 * n` bits, most significant byte first. -/
def word (n : Nat) : Codec ε (BitVec (8 * n)) :=
  total (fun v => beBytes n v.toNat) _ (decodes_word eof n)

/-- A value written as its image under a map that can be undone. -/
def iso (f : β → α) (g : α → β) (h : ∀ b, g (f b) = b) : Codec ε β where
  encode b := c.encode (f b)
  decode := do
    let a ← c.decode
    Pure.pure (g a)
  takes b := c.takes (f b)
  decodes b hb := by
    have hread := (c.decodes (f b) hb).map (f := g)
    rwa [h b] at hread

/-- One value after the other. -/
def pair (d : Codec ε β) : Codec ε (α × β) where
  encode p := c.encode p.1 ++ d.encode p.2
  decode := do
    let a ← c.decode
    let b ← d.decode
    Pure.pure (a, b)
  takes p := c.takes p.1 && d.takes p.2
  decodes p hp := by
    rw [Bool.and_eq_true] at hp
    exact (c.decodes p.1 hp.1).bind (d.decodes p.2 hp.2).map

/-- Read a tag byte and go on with one of two decoders. -/
def readTagged (p q : Parser ε α) : Parser ε α := do
  let tag ← readLe eof 1
  if tag = 0 then p else q

/-- One of two values, behind a tag byte. -/
def either (d : Codec ε β) : Codec ε (α ⊕ β) where
  encode
    | .inl a => leBytes 1 0 ++ c.encode a
    | .inr b => leBytes 1 1 ++ d.encode b
  decode := readTagged eof (do let a ← c.decode; Pure.pure (.inl a))
    (do let b ← d.decode; Pure.pure (.inr b))
  takes
    | .inl a => c.takes a
    | .inr b => d.takes b
  decodes x hx := by
    cases x with
    | inl a => exact (decodes_readLe eof (n := 1) (by omega)).bind (c.decodes a hx).map
    | inr b => exact (decodes_readLe eof (n := 1) (by omega)).bind (d.decodes b hx).map

/-- A list: its length as a varint, then its elements. -/
def list (nonMinimal : ε) : Codec ε (List α) where
  encode := emitList c.encode
  decode := readList eof nonMinimal c.decode
  takes as := decide (as.length < 2 ^ 64) && as.all c.takes
  decodes as has := by
    rw [Bool.and_eq_true, decide_eq_true_iff, all_eq_true] at has
    exact decodes_readList eof nonMinimal has.1 fun a ha => c.decodes a (has.2 a ha)

end Codec

end Swk
