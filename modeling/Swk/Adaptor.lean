import Mathlib.Algebra.Field.ZMod
import Mathlib.Algebra.Module.ZMod
import Mathlib.Tactic.Module
import Swk.Descriptor
import Swk.StateExcept

/-!
# Adaptor signatures

`adaptor.rs`: Schnorr signatures that are completed with a secret. A pre-signature for an adaptor
point `T = t • G` becomes an ordinary BIP340 signature for whoever knows `t`, and whoever has both
learns `t` from them. The two legs of a swap are coupled that way.

BIP340 identifies a point with its opposite, and signs for the one with even ordinate. So three
signs are chosen along the way: the key's, the nonce's and that of `R + T`. The proofs take them
together: with `ε = ±1` the sign that makes `ε • (R + T)` even, verification says
`ŝ • G = ε • (R + T - T) + e • P` and a signature says `s • G = ε • (R + T) + e • P`, so
`s - ŝ = ε * t` (`verify_iff`, `bip340_iff`).
-/

namespace Swk

/-! ## Points up to sign -/

/-- A group whose elements are multiples of a generator by scalars modulo `n`. Points other than
zero have an abscissa, the same only for opposite points, and of two opposite points one has an even
ordinate. -/
structure Curve (n : ℕ) (E : Type) [AddCommGroup E] [Module (ZMod n) E] where
  generator : E
  generates : ∀ p : E, ∃ k : ZMod n, k • generator = p
  eq_zero_of_smul : ∀ k : ZMod n, k • generator = 0 → k = 0
  hasEvenY : E → Bool
  hasEvenY_neg : ∀ p, p ≠ 0 → hasEvenY (-p) = !hasEvenY p
  x : E → Bytes
  x_eq_iff : ∀ p q, p ≠ 0 → q ≠ 0 → (x p = x q ↔ p = q ∨ p = -q)

namespace Curve

variable {n : ℕ} {E : Type} [AddCommGroup E] [Module (ZMod n) E] (c : Curve n E)

theorem smul_injective {k l : ZMod n} (h : k • c.generator = l • c.generator) : k = l := by
  have hzero : (k - l) • c.generator = 0 := by rw [sub_smul, h, sub_self]
  exact sub_eq_zero.1 (c.eq_zero_of_smul _ hzero)

theorem smul_ne_zero {k : ZMod n} (hk : k ≠ 0) : k • c.generator ≠ 0 :=
  fun h => hk (c.eq_zero_of_smul k h)

def sign (p : E) : ZMod n := if c.hasEvenY p then 1 else -1

theorem sign_mul_self (p : E) : c.sign p * c.sign p = 1 := by
  unfold sign
  split <;> ring

theorem sign_smul_ne_zero {p : E} (hp : p ≠ 0) : c.sign p • p ≠ 0 := by
  intro h
  apply hp
  rw [← one_smul (ZMod n) p, ← c.sign_mul_self p, mul_smul, h, smul_zero]

theorem hasEvenY_sign_smul {p : E} (hp : p ≠ 0) : c.hasEvenY (c.sign p • p) = true := by
  unfold sign
  by_cases heven : c.hasEvenY p = true
  · rw [if_pos heven, one_smul, heven]
  · rw [if_neg heven, neg_smul, one_smul, c.hasEvenY_neg p hp]
    simpa using heven

theorem x_sign_smul {p : E} (hp : p ≠ 0) : c.x (c.sign p • p) = c.x p := by
  rw [c.x_eq_iff _ _ (c.sign_smul_ne_zero hp) hp]
  unfold sign
  split
  · exact .inl (one_smul _ _)
  · exact .inr (by rw [neg_smul, one_smul])

/-- **`lift_x`**: of the points with an abscissa, one is even. -/
theorem eq_sign_smul {p q : E} (hp : p ≠ 0) (hq : q ≠ 0) (hx : c.x p = c.x q)
    (heven : c.hasEvenY p = true) : p = c.sign q • q := by
  have hx' : c.x p = c.x (c.sign q • q) := hx.trans (c.x_sign_smul hq).symm
  rcases (c.x_eq_iff _ _ hp (c.sign_smul_ne_zero hq)).1 hx' with h | h
  · exact h
  · have hodd := c.hasEvenY_neg _ (c.sign_smul_ne_zero hq)
    rw [← h, heven, c.hasEvenY_sign_smul hq] at hodd
    cases hodd

end Curve

/-! ## The four functions -/

/-- The curve with what `secp256k1` reads and writes, and SHA256 with a tag. Keys are neither zero
nor the point at infinity. An error is the text it displays. -/
structure Schnorr (n : ℕ) (E : Type) [AddCommGroup E] [Module (ZMod n) E] extends Curve n E where
  serialize : E → Bytes
  pointFromSlice : Bytes → Except String E
  pointFromSlice_serialize : ∀ p, p ≠ 0 → pointFromSlice (serialize p) = .ok p
  pointFromSlice_ne_zero : ∀ b p, pointFromSlice b = .ok p → p ≠ 0
  secretBytes : ZMod n → Bytes
  secretFromSlice : Bytes → Except String (ZMod n)
  secretFromSlice_secretBytes : ∀ k, k ≠ 0 → secretFromSlice (secretBytes k) = .ok k
  secretFromSlice_ne_zero : ∀ b k, secretFromSlice b = .ok k → k ≠ 0
  taggedHash : String → List Bytes → Bytes

/-- A pre-signature: `R + T`, compressed, and `ŝ`, 33 and 32 of its 65 bytes. -/
structure PreSignature where
  point : Bytes
  scalar : Bytes
deriving DecidableEq

/-- A BIP340 signature: the nonce's abscissa and `s`, 32 bytes each. -/
structure SchnorrSignature where
  nonce : Bytes
  scalar : Bytes
deriving DecidableEq

namespace Schnorr

variable {n : ℕ} {E : Type} [AddCommGroup E] [Module (ZMod n) E]

/-- An x-only public key: the even point with its abscissa. -/
structure XOnly (c : Schnorr n E) where
  point : E
  ne_zero : point ≠ 0
  even : c.hasEvenY point = true

/-- `scalar_reduced`: a hash as a scalar. -/
def scalarReduced (n : ℕ) (bytes : Bytes) : ZMod n :=
  (bytes.foldl (fun acc b => 256 * acc + b.toNat) 0 : ℕ)

variable (c : Schnorr n E)

/-- `challenge`, on the nonce's abscissa. -/
def challenge (rx px msg : Bytes) : ZMod n :=
  scalarReduced n (c.taggedHash "BIP0340/challenge" [rx, px, msg])

/-- The nonce of `adaptor_sign`: deterministic, bound to the adaptor point. -/
def nonce (d : ZMod n) (px msg : Bytes) (tPoint : E) : ZMod n :=
  let aux := c.taggedHash "BIP0340/aux" [List.replicate 32 0]
  let tAux := List.zipWith (· ^^^ ·) (c.secretBytes d) aux
  scalarReduced n (c.taggedHash "BIP0340/nonce" [tAux, px, c.serialize tPoint, msg])

def adaptorSign [DecidableEq E] (c : Schnorr n E) (d : ZMod n) (msg : Bytes) (tPoint : E) :
    Except Error PreSignature :=
  let key := d • c.generator
  let d := if c.hasEvenY key then d else -d
  let px := c.x key
  let k := c.nonce d px msg tPoint
  if k = 0 then
    .error (.generic "scalar reduced to zero (negligible); retry with different inputs")
  else
    let rComb := k • c.generator + tPoint
    if rComb = 0 then .error (.generic "R + T is the point at infinity (R == -T)")
    else
      let e := c.challenge (c.x rComb) px msg
      if e = 0 then .error (.generic "e·d is zero (negligible)")
      else
        let sHat := if c.hasEvenY rComb then k + e * d else e * d + -k
        if sHat = 0 then .error (.generic "ŝ is zero (negligible)")
        else .ok ⟨c.serialize rComb, c.secretBytes sHat⟩

def adaptorVerify [DecidableEq E] (c : Schnorr n E) (p : c.XOnly) (msg : Bytes) (tPoint : E)
    (presig : PreSignature) : Bool :=
  match c.pointFromSlice presig.point, c.secretFromSlice presig.scalar with
  | .ok rComb, .ok sHat =>
    let e := c.challenge (c.x rComb) (c.x p.point) msg
    let r0 := rComb + -tPoint
    if r0 = 0 then false
    else
      let u := if c.hasEvenY rComb then r0 else -r0
      if e = 0 then false
      else
        let rhs := u + e • p.point
        if rhs = 0 then false else sHat • c.generator = rhs
  | _, _ => false

/-- `R + T` and `ŝ` of a pre-signature. -/
def parsePresig (presig : PreSignature) : Except Error (E × ZMod n) :=
  match c.pointFromSlice presig.point with
  | .error e => .error (.generic ("bad R+T in â: " ++ e))
  | .ok rComb =>
    match c.secretFromSlice presig.scalar with
    | .error e => .error (.generic ("bad ŝ in â: " ++ e))
    | .ok sHat => .ok (rComb, sHat)

def adaptorComplete (presig : PreSignature) (t : ZMod n) : Except Error SchnorrSignature := do
  let (rComb, sHat) ← c.parsePresig presig
  let s := if c.hasEvenY rComb then sHat + t else sHat + -t
  if s = 0 then throw (.generic "completed s is zero (negligible)")
  else pure ⟨c.x rComb, c.secretBytes s⟩

def adaptorExtract (fullSig : SchnorrSignature) (presig : PreSignature) : Except Error Bytes := do
  let (rComb, sHat) ← c.parsePresig presig
  match c.secretFromSlice fullSig.scalar with
  | .error e => throw (.generic ("bad s in σ: " ++ e))
  | .ok s =>
    if c.x rComb ≠ fullSig.nonce then throw (.generic "σ nonce x(R+T) does not match â")
    else
      let t := if c.hasEvenY rComb then s + -sHat else sHat + -s
      if t = 0 then throw (.generic "extracted t is zero (negligible)")
      else pure (c.secretBytes t)

/-! ## What they compute -/

section Facts

variable {c : Schnorr n E} {p : c.XOnly} {msg : Bytes} {tPoint : E} {presig : PreSignature}

theorem parsePresig_ok {r : E × ZMod n} (h : c.parsePresig presig = .ok r) :
    c.pointFromSlice presig.point = .ok r.1 ∧ c.secretFromSlice presig.scalar = .ok r.2 := by
  unfold parsePresig at h
  cases hpoint : c.pointFromSlice presig.point with
  | error e => simp [hpoint] at h
  | ok rComb =>
    cases hscalar : c.secretFromSlice presig.scalar with
    | error e => simp [hpoint, hscalar] at h
    | ok sHat =>
      simp only [hpoint, hscalar, Except.ok.injEq] at h
      rw [← h]
      exact ⟨rfl, rfl⟩

variable {rComb : E} {sHat : ZMod n} {sig : SchnorrSignature} {t : ZMod n}

theorem parsePresig_eq (hpoint : c.pointFromSlice presig.point = .ok rComb)
    (hscalar : c.secretFromSlice presig.scalar = .ok sHat) :
    c.parsePresig presig = .ok (rComb, sHat) := by
  simp [parsePresig, hpoint, hscalar]

theorem ite_neg_eq_sign (q : E) {M : Type} [AddCommGroup M] [Module (ZMod n) M] (a : M) :
    (if c.hasEvenY q then a else -a) = c.sign q • a := by
  unfold Curve.sign
  split
  · rw [one_smul]
  · rw [neg_smul, one_smul]

theorem ite_add_eq_sign (q : E) (k a : ZMod n) :
    (if c.hasEvenY q then k + a else a + -k) = c.sign q * k + a := by
  unfold Curve.sign
  split <;> ring

/-- A pre-signature is accepted if `ŝ` is right for the nonce without the adaptor point. -/
theorem adaptorVerify_iff [DecidableEq E] : c.adaptorVerify p msg tPoint presig = true ↔
    ∃ rComb sHat, c.pointFromSlice presig.point = .ok rComb ∧
      c.secretFromSlice presig.scalar = .ok sHat ∧ rComb + -tPoint ≠ 0 ∧
      c.challenge (c.x rComb) (c.x p.point) msg ≠ 0 ∧
      sHat • c.generator = c.sign rComb • (rComb + -tPoint) +
        c.challenge (c.x rComb) (c.x p.point) msg • p.point := by
  unfold adaptorVerify
  cases hpoint : c.pointFromSlice presig.point with
  | error e => simp
  | ok rComb =>
    cases hscalar : c.secretFromSlice presig.scalar with
    | error e => simp
    | ok sHat =>
      have hne : sHat • c.generator ≠ 0 := c.smul_ne_zero (c.secretFromSlice_ne_zero _ _ hscalar)
      simp only [ite_neg_eq_sign, Except.ok.injEq]
      constructor
      · intro h
        split_ifs at h with hr0 he
        exact ⟨rComb, sHat, rfl, rfl, hr0, he, of_decide_eq_true h⟩
      · rintro ⟨_, _, rfl, rfl, hr0, he, heq⟩
        have hrhs : c.sign rComb • (rComb + -tPoint) +
            c.challenge (c.x rComb) (c.x p.point) msg • p.point ≠ 0 := heq ▸ hne
        rw [if_neg hr0, if_neg he, if_neg hrhs]
        exact decide_eq_true heq

/-- **BIP340**: a signature that is accepted for a key and a message, with a scalar other than
zero. -/
def Bip340 (c : Schnorr n E) (p : c.XOnly) (msg : Bytes) (sig : SchnorrSignature) : Prop :=
  ∃ r s, r ≠ 0 ∧ c.hasEvenY r = true ∧ c.x r = sig.nonce ∧ c.secretFromSlice sig.scalar = .ok s ∧
    s • c.generator = r + c.challenge sig.nonce (c.x p.point) msg • p.point

/-- With the nonce `R + T`, up to sign, the equation is about the even one of the two. -/
theorem bip340_iff (hne : rComb ≠ 0) (hnonce : sig.nonce = c.x rComb) : c.Bip340 p msg sig ↔
      ∃ s, c.secretFromSlice sig.scalar = .ok s ∧ s • c.generator =
        c.sign rComb • rComb + c.challenge (c.x rComb) (c.x p.point) msg • p.point := by
  rw [← hnonce]
  constructor
  · intro ⟨r, s, hr, heven, hx, hs, heq⟩
    have hlift : r = c.sign rComb • rComb := c.eq_sign_smul hr hne (hx.trans hnonce) heven
    rw [← hlift]
    exact ⟨s, hs, heq⟩
  · intro ⟨s, hs, heq⟩
    exact ⟨_, s, c.sign_smul_ne_zero hne, c.hasEvenY_sign_smul hne,
      (c.x_sign_smul hne).trans hnonce.symm, hs, heq⟩

theorem scalar_eq {s e : ZMod n}
    (hverify : sHat • c.generator = c.sign rComb • (rComb + -(t • c.generator)) + e • p.point) :
    s • c.generator = c.sign rComb • rComb + e • p.point ↔ s = sHat + c.sign rComb * t := by
  have hsum : (sHat + c.sign rComb * t) • c.generator = c.sign rComb • rComb + e • p.point := by
    rw [add_smul, hverify, mul_smul, smul_add, smul_neg]
    abel
  rw [← hsum]
  exact ⟨fun h => c.smul_injective h, fun h => by rw [h]⟩

theorem adaptorSign_ok [DecidableEq E] {d : ZMod n} (h : c.adaptorSign d msg tPoint = .ok presig) :
    ∃ k sHat : ZMod n, k ≠ 0 ∧ k • c.generator + tPoint ≠ 0 ∧ sHat ≠ 0 ∧
      let rComb := k • c.generator + tPoint
      let e := c.challenge (c.x rComb) (c.x (d • c.generator)) msg
      e ≠ 0 ∧ sHat = c.sign rComb * k + e * (c.sign (d • c.generator) * d) ∧
        presig = ⟨c.serialize rComb, c.secretBytes sHat⟩ := by
  unfold adaptorSign at h
  simp only [ite_neg_eq_sign, ite_add_eq_sign, smul_eq_mul] at h
  split_ifs at h with hk hr he hs
  cases h
  exact ⟨_, _, hk, hr, hs, he, rfl, rfl⟩

theorem adaptorComplete_ok (h : c.adaptorComplete presig t = .ok sig) :
    ∃ rComb sHat, c.parsePresig presig = .ok (rComb, sHat) ∧ sHat + c.sign rComb * t ≠ 0 ∧
      sig = ⟨c.x rComb, c.secretBytes (sHat + c.sign rComb * t)⟩ := by
  obtain ⟨⟨rComb, sHat⟩, hparse, h⟩ := except_bind_ok_iff.1 h
  have hs : (if c.hasEvenY rComb then sHat + t else sHat + -t) = sHat + c.sign rComb * t := by
    unfold Curve.sign
    split <;> ring
  dsimp only at h
  rw [hs] at h
  split_ifs at h with hne
  cases h
  exact ⟨rComb, sHat, hparse, hne, rfl⟩

theorem adaptorExtract_eq {s : ZMod n} (hparse : c.parsePresig presig = .ok (rComb, sHat))
    (hscalar : c.secretFromSlice sig.scalar = .ok s) (hnonce : sig.nonce = c.x rComb) (ht : t ≠ 0)
    (hs : s = sHat + c.sign rComb * t) : c.adaptorExtract sig presig = .ok (c.secretBytes t) := by
  have htEq : (if c.hasEvenY rComb then s + -sHat else sHat + -s) = t := by
    rw [hs]
    unfold Curve.sign
    split <;> ring
  unfold adaptorExtract
  rw [hparse]
  simp only [hscalar, hnonce, htEq, ht, ne_eq, not_true_eq_false, if_false, bind, Except.bind]
  rfl

end Facts

/-- **Adaptor signatures.** For every adaptor secret `t` other than zero, with `T = t • G`:

* what the signer makes is accepted for their key;
* what is accepted and can be completed is completed to a BIP340 signature, with the nonce and so
  the challenge of the pre-signature;
* from an accepted pre-signature and any BIP340 signature with its nonce, `t` is extracted. -/
theorem adaptor_sound [DecidableEq E] (c : Schnorr n E) (t : ZMod n) (ht : t ≠ 0) :
    (∀ d msg presig (p : c.XOnly), d ≠ 0 → p.point = c.sign (d • c.generator) • d • c.generator →
      c.adaptorSign d msg (t • c.generator) = .ok presig →
      c.adaptorVerify p msg (t • c.generator) presig = true) ∧
    (∀ (p : c.XOnly) msg presig sig, c.adaptorVerify p msg (t • c.generator) presig = true →
      c.adaptorComplete presig t = .ok sig →
      c.Bip340 p msg sig ∧ ∃ rComb, c.pointFromSlice presig.point = .ok rComb ∧
        sig.nonce = c.x rComb) ∧
    ∀ (p : c.XOnly) msg presig sig rComb, c.adaptorVerify p msg (t • c.generator) presig = true →
      c.pointFromSlice presig.point = .ok rComb → sig.nonce = c.x rComb → c.Bip340 p msg sig →
      c.adaptorExtract sig presig = .ok (c.secretBytes t) := by
  refine ⟨?_, ?_, ?_⟩
  · intro d msg presig p hd hp hsign
    obtain ⟨k, sHat, hk, hr, hs, he, hsHat, rfl⟩ := adaptorSign_ok hsign
    have hkey : c.x p.point = c.x (d • c.generator) := by
      rw [hp]
      exact c.x_sign_smul (c.smul_ne_zero hd)
    refine adaptorVerify_iff.2 ⟨_, sHat, c.pointFromSlice_serialize _ hr,
      c.secretFromSlice_secretBytes _ hs, ?_, ?_, ?_⟩
    · rw [add_neg_cancel_right]
      exact c.smul_ne_zero hk
    · rw [hkey]
      exact he
    · rw [hkey, add_neg_cancel_right, hsHat, hp, add_smul, mul_smul, mul_smul, mul_smul]
  · intro p msg presig sig hverify hcomplete
    obtain ⟨rComb, sHat, hparse, hs, rfl⟩ := adaptorComplete_ok hcomplete
    obtain ⟨hpoint, hscalar⟩ := parsePresig_ok hparse
    obtain ⟨_, _, hpoint', hscalar', -, -, heq⟩ := adaptorVerify_iff.1 hverify
    cases hpoint.symm.trans hpoint'
    cases hscalar.symm.trans hscalar'
    refine ⟨?_, rComb, hpoint, rfl⟩
    have hbytes := c.secretFromSlice_secretBytes _ hs
    exact (bip340_iff (c.pointFromSlice_ne_zero _ _ hpoint) rfl).2
      ⟨_, hbytes, (scalar_eq heq).2 rfl⟩
  · intro p msg presig sig rComb hverify hpoint hnonce hbip
    obtain ⟨_, sHat, hpoint', hscalar, -, -, heq⟩ := adaptorVerify_iff.1 hverify
    cases hpoint.symm.trans hpoint'
    obtain ⟨s, hs, hsig⟩ := (bip340_iff (c.pointFromSlice_ne_zero _ _ hpoint) hnonce).1 hbip
    exact adaptorExtract_eq (parsePresig_eq hpoint hscalar) hs hnonce ht ((scalar_eq heq).1 hsig)

/-! ## A small curve -/

namespace Seven

theorem ne_zero_of_read {a : ℕ} {text : String} {p : ZMod 7}
    (h : (if a % 7 = 0 then Except.error text else .ok (a : ZMod 7)) = .ok p) : p ≠ 0 := by
  split_ifs at h with hne
  cases h
  rw [ne_eq, ZMod.natCast_eq_zero_iff]
  exact fun hdvd => hne (Nat.mod_eq_zero_of_dvd hdvd)

def curve : Schnorr 7 (ZMod 7) where
  generator := 1
  generates := by decide
  eq_zero_of_smul := by decide
  hasEvenY := fun p => p.val % 2 = 0
  hasEvenY_neg := by decide
  x := fun p => [.ofNat (min p.val (-p).val)]
  x_eq_iff := by decide
  serialize := fun p => [.ofNat p.val]
  pointFromSlice := fun b =>
    if (b.headD 0).toNat % 7 = 0 then .error "malformed public key" else .ok (b.headD 0).toNat
  pointFromSlice_serialize := by decide
  pointFromSlice_ne_zero _ _ := ne_zero_of_read
  secretBytes := fun k => [.ofNat k.val]
  secretFromSlice := fun b =>
    if (b.headD 0).toNat % 7 = 0 then .error "malformed secret key" else .ok (b.headD 0).toNat
  secretFromSlice_secretBytes := by decide
  secretFromSlice_ne_zero _ _ := ne_zero_of_read
  taggedHash := fun tag chunks => [.ofNat (tag.length + chunks.flatten.length)]

def key : curve.XOnly := ⟨2, by decide, by decide⟩

def presig : PreSignature := ⟨[5], [1]⟩

def sig : SchnorrSignature := ⟨[2], [5]⟩

/-- A pre-signature is made, completed and the secret extracted from it. -/
theorem adaptor_sound_seven :
    curve.adaptorVerify key [] ((3 : ZMod 7) • curve.generator) presig = true ∧
      curve.adaptorComplete presig 3 = .ok sig ∧ curve.Bip340 key [] sig ∧
      curve.adaptorExtract sig presig = .ok (curve.secretBytes 3) := by
  obtain ⟨hsign, hcomplete, hextract⟩ := adaptor_sound curve 3 (by decide)
  have hverify := hsign 2 [] presig key (by decide) (by decide) (by decide)
  have hsig : curve.adaptorComplete presig 3 = .ok sig := by decide
  obtain ⟨hbip, -⟩ := hcomplete key [] presig sig hverify hsig
  exact ⟨hverify, hsig, hbip, hextract key [] presig sig 5 hverify (by decide) (by decide) hbip⟩

end Seven

end Schnorr

end Swk
