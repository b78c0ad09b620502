import Multicall.Http.Headers
import Multicall.Response.Boundary
/-!
What the token of a random boundary consists of. A seed of whole groups leaves nothing to be padded, so its
base64 keeps to the alphabet, and no letter of that means anything in a header. Every four letters give back
the three octets that they were made of, so no two seeds share a token.
-/
namespace Multicall

namespace Boundary

theorem letter_mem (n : Nat) : letter n ∈ '=' :: alphabet := by
  rw [letter, List.getD_eq_getElem?_getD]
  cases found : alphabet[n]? with
  | none => exact List.mem_cons_self
  | some c => exact List.mem_cons_of_mem _ (List.mem_of_getElem? found)

theorem base64_letters (seed : Octets) : ∀ c ∈ base64 seed, c ∈ '=' :: alphabet := by
  fun_induction base64 seed with
  | case1 a b c rest n ih =>
    simp only [List.forall_mem_cons]
    exact ⟨letter_mem _, letter_mem _, letter_mem _, letter_mem _, ih⟩
  | case2 a b n =>
    simp only [List.forall_mem_cons]
    exact ⟨letter_mem _, letter_mem _, letter_mem _, List.mem_cons_self, List.forall_mem_nil _⟩
  | case3 a n =>
    simp only [List.forall_mem_cons]
    exact ⟨letter_mem _, letter_mem _, List.mem_cons_self, List.mem_cons_self, List.forall_mem_nil _⟩
  | case4 => exact List.forall_mem_nil _

/-- The content type of a random boundary can stand in a header. -/
theorem contentType_readable (seed : Octets) :
    (Octets.ofText (ofSeed seed).contentType).all Http.isReadable = true := by
  have letters : ('=' :: alphabet).all
      (fun c => (String.utf8EncodeChar c).all Http.isReadable) = true := by decide +kernel
  have drawn : (Octets.ofChars (base64 seed)).all Http.isReadable = true := by
    rw [Octets.ofChars, List.all_flatMap, List.all_eq_true]
    exact fun c member => List.all_eq_true.mp letters c (base64_letters seed c member)
  have front : (Octets.ofText ("multipart/mixed; boundary=" ++ leadingWord)).all Http.isReadable =
      true := by decide +kernel
  have split : (ofSeed seed).contentType =
      "multipart/mixed; boundary=" ++ leadingWord ++ String.ofList (base64 seed) :=
    String.append_assoc.symm
  rw [split, Octets.ofText, String.toList_append, Octets.ofChars_append, List.all_append,
    String.toList_ofList, drawn, Bool.and_true]
  exact front

/-! Seeds of whole groups, of three octets each. -/

/-- Three octets as one number. -/
def triple (a b c : UInt8) : Nat := a.toNat * 65536 + b.toNat * 256 + c.toNat

/-- Twenty-four bits as four letters. -/
def quartet (n : Nat) : List Char :=
  [letter (n / 262144), letter (n / 4096 % 64), letter (n / 64 % 64), letter (n % 64)]

theorem base64_cons (a b c : UInt8) (rest : Octets) :
    base64 (a :: b :: c :: rest) = quartet (triple a b c) ++ base64 rest := rfl

theorem triple_lt (a b c : UInt8) : triple a b c < 16777216 := by
  have first := a.toNat_lt
  have second := b.toNat_lt
  have third := c.toNat_lt
  rw [triple]
  omega

/-- The octets come in threes. -/
inductive WholeGroups : Octets → Prop
  | nil : WholeGroups []
  | cons (a b c : UInt8) {rest : Octets} (more : WholeGroups rest) : WholeGroups (a :: b :: c :: rest)

theorem WholeGroups.of_length {seed : Octets} (threes : 3 ∣ seed.length) : WholeGroups seed := by
  -- the cases of the encoder, of which the two that pad do not arise
  fun_induction base64 seed with
  | case1 a b c rest _ ih => exact .cons a b c (ih ((Nat.dvd_add_left (Nat.dvd_refl 3)).mp threes))
  | case2 | case3 =>
    rw [Nat.dvd_iff_mod_eq_zero] at threes
    cases threes
  | case4 => exact .nil

theorem WholeGroups.length_base64 {seed : Octets} (whole : WholeGroups seed) :
    (base64 seed).length = seed.length / 3 * 4 := by
  induction whole with
  | nil => rfl
  | cons a b c more ih =>
    rw [base64_cons, List.length_append, ih]
    simp only [quartet, List.length_cons, List.length_nil]
    omega

theorem letter_mem_alphabet {n : Nat} (six : n < 64) : letter n ∈ alphabet := by
  have each : ∀ n < 64, letter n ∈ alphabet := by decide +kernel
  exact each n six

theorem quartet_mem {n : Nat} (small : n < 16777216) : ∀ c ∈ quartet n, c ∈ alphabet := by
  simp only [quartet, List.forall_mem_cons]
  exact ⟨letter_mem_alphabet (by omega), letter_mem_alphabet (Nat.mod_lt _ (by decide)),
    letter_mem_alphabet (Nat.mod_lt _ (by decide)), letter_mem_alphabet (Nat.mod_lt _ (by decide)),
    List.forall_mem_nil _⟩

/-- Whole groups are never padded. -/
theorem WholeGroups.unpadded {seed : Octets} (whole : WholeGroups seed) :
    ∀ c ∈ base64 seed, c ∈ alphabet := by
  induction whole with
  | nil => exact List.forall_mem_nil _
  | cons a b c more ih =>
    rw [base64_cons, List.forall_mem_append]
    exact ⟨quartet_mem (triple_lt a b c), ih⟩

/-! Base64 read backwards. -/

/-- The six bits that a letter stands for. -/
def sextet (c : Char) : Nat := alphabet.idxOf c

/-- Twenty-four bits as three octets. -/
def octets (n : Nat) : Octets := [UInt8.ofNat (n / 65536), UInt8.ofNat (n / 256), UInt8.ofNat n]

/-- The octets that whole groups of four letters stand for. -/
def unbase64 : List Char → Octets
  | w :: x :: y :: z :: rest =>
      octets (sextet w * 262144 + sextet x * 4096 + sextet y * 64 + sextet z) ++ unbase64 rest
  | _ => []

theorem sextet_letter {n : Nat} (six : n < 64) : sextet (letter n) = n := by
  have each : ∀ n < 64, sextet (letter n) = n := by decide +kernel
  exact each n six

theorem unbase64_quartet {n : Nat} (small : n < 16777216) (cs : List Char) :
    unbase64 (quartet n ++ cs) = octets n ++ unbase64 cs := by
  have joined : n / 262144 * 262144 + n / 4096 % 64 * 4096 + n / 64 % 64 * 64 + n % 64 = n := by
    omega
  simp only [quartet, List.cons_append, List.nil_append, unbase64]
  rw [sextet_letter (by omega), sextet_letter (Nat.mod_lt _ (by decide)),
    sextet_letter (Nat.mod_lt _ (by decide)), sextet_letter (Nat.mod_lt _ (by decide)), joined]

theorem octets_triple (a b c : UInt8) : octets (triple a b c) = [a, b, c] := by
  have first := a.toNat_lt
  have second := b.toNat_lt
  have third := c.toNat_lt
  -- narrowing cuts off what the octets in front have added
  simp only [octets, triple, List.cons.injEq, and_true, ← UInt8.toNat_inj, UInt8.toNat_ofNat']
  omega

theorem WholeGroups.unbase64_base64 {seed : Octets} (whole : WholeGroups seed) :
    unbase64 (base64 seed) = seed := by
  induction whole with
  | nil => rfl
  | cons a b c more ih =>
    rw [base64_cons, unbase64_quartet (triple_lt a b c), ih, octets_triple]
    rfl

/-! The token. -/

/-- The characters with a meaning of their own in headers. A parameter with one of them needs quotes. -/
def headerSpecials : List Char := "()<>@,;:\\\"/[]?=".toList

/-- The character can stand in a header parameter without quotes: it is printable ASCII but no space, and
none of the specials. -/
def IsTokenChar (c : Char) : Prop := 0x20 < c.toNat ∧ c.toNat < 0x7F ∧ c ∉ headerSpecials

instance : DecidablePred IsTokenChar := fun c =>
  inferInstanceAs (Decidable (0x20 < c.toNat ∧ c.toNat < 0x7F ∧ c ∉ headerSpecials))

theorem isTokenChar_of_mem {c : Char} (member : c ∈ leadingWord.toList ++ alphabet) :
    IsTokenChar c ∧ c ≠ '+' := by
  have each : (leadingWord.toList ++ alphabet).all (fun c => IsTokenChar c ∧ c ≠ '+') = true := by
    decide +kernel
  exact of_decide_eq_true (List.all_eq_true.mp each c member)

theorem ofSeed_toList (seed : Octets) :
    (ofSeed seed).token.toList = leadingWord.toList ++ base64 seed := by
  rw [ofSeed, String.toList_append, String.toList_ofList]

theorem WholeGroups.eq_of_token {seed other : Octets} (whole : WholeGroups seed)
    (also : WholeGroups other) (same : (ofSeed seed).token = (ofSeed other).token) :
    seed = other := by
  have letters := congrArg String.toList same
  rw [ofSeed_toList, ofSeed_toList, List.append_cancel_left_eq] at letters
  rw [← whole.unbase64_base64, letters, also.unbase64_base64]

/-- For every seed of nine octets: the token is the leading word and twelve characters more, each of its
characters can stand in a header parameter without quotes and is no `+` either, and no other such seed has
the same token. -/
theorem random_token_is_faithful {seed : Octets} (drawn : seed.length = seedLength) :
    (∃ letters : List Char,
      (ofSeed seed).token = "BATCH-" ++ String.ofList letters ∧ letters.length = 12) ∧
    (∀ c ∈ (ofSeed seed).token.toList, IsTokenChar c ∧ c ≠ '+') ∧
    ∀ other : Octets, other.length = seedLength →
      (ofSeed other).token = (ofSeed seed).token → other = seed := by
  have whole {seed : Octets} (drawn : seed.length = seedLength) : WholeGroups seed :=
    .of_length ⟨3, drawn⟩
  refine ⟨⟨base64 seed, rfl, ?_⟩, ?_, ?_⟩
  · rw [(whole drawn).length_base64, drawn, seedLength]
  · intro c member
    rw [ofSeed_toList, List.mem_append] at member
    exact isTokenChar_of_mem (List.mem_append.mpr (member.imp_right ((whole drawn).unpadded c)))
  · intro other also same
    exact (whole also).eq_of_token (whole drawn) same

/-- A seed whose letters are the two of the alphabet that are neither letters nor digits. -/
theorem seed_of_marks_is_faithful :
    (ofSeed [0xFB, 0xEF, 0xBE, 0xFF, 0xFF, 0xFF, 0xFB, 0xEF, 0xBE]).token = "BATCH-----____----" ∧
    (∀ c ∈ "BATCH-----____----".toList, IsTokenChar c ∧ c ≠ '+') ∧
    ∀ other : Octets, other.length = 9 → (ofSeed other).token = "BATCH-----____----" →
      other = [0xFB, 0xEF, 0xBE, 0xFF, 0xFF, 0xFF, 0xFB, 0xEF, 0xBE] := by
  have token : (ofSeed [0xFB, 0xEF, 0xBE, 0xFF, 0xFF, 0xFF, 0xFB, 0xEF, 0xBE]).token =
      "BATCH-----____----" := by decide +kernel
  obtain ⟨-, characters, faithful⟩ := random_token_is_faithful
    (show [0xFB, 0xEF, 0xBE, 0xFF, 0xFF, 0xFF, 0xFB, 0xEF, 0xBE].length = seedLength from rfl)
  rw [token] at characters faithful
  exact ⟨token, characters, faithful⟩

end Boundary

end Multicall
