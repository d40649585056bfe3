import Mathlib.Tactic.IntervalCases
import JobRelay.Model.AuthContext

/-! # The grammar of `X-Auth`

The headers that `current_ctx` accepts are those that print the principal they name, and a header is all that
there is to a principal: a text of digits without a leading zero is the decimal of its value, by induction on its
last digit.
-/

namespace JobRelay.Guarantees

open Model

section Decimals

private theorem digitChar_toNat {char : Char} (digit : isAsciiDigit char = true) :
    (char.toNat - '0'.toNat).digitChar = char ∧ char.toNat - '0'.toNat < 10 := by
  have range : 48 ≤ char.toNat ∧ char.toNat ≤ 57 := of_decide_eq_true digit
  obtain ⟨least, most⟩ := range
  have same := Char.ofNat_toNat char
  generalize char.toNat = code at least most same
  subst same
  interval_cases code <;> decide

private theorem pos_of_toDigits {n : ℕ} {digits : List Char} (same : Nat.toDigits 10 n = digits)
    (lead : digits.head? ≠ some '0') : 0 < n := by
  apply Nat.pos_of_ne_zero
  rintro rfl
  rw [Nat.toDigits_zero] at same
  rw [← same] at lead
  exact lead rfl

/-- Digits without a leading zero are the decimal of their value. -/
private theorem toDigits_ofDigitChars {digits : List Char} (nonempty : digits ≠ [])
    (ascii : ∀ char ∈ digits, isAsciiDigit char = true) (lead : digits.head? ≠ some '0') :
    Nat.toDigits 10 (Nat.ofDigitChars 10 digits 0) = digits := by
  induction digits using List.reverseRecOn with
  | nil => exact absurd rfl nonempty
  | append_singleton front last ih =>
    obtain ⟨shown, small⟩ := digitChar_toNat (ascii last (by simp))
    rw [Nat.ofDigitChars_append, Nat.ofDigitChars_cons, Nat.ofDigitChars_nil]
    by_cases single : front = []
    · subst single
      rw [Nat.ofDigitChars_nil, Nat.mul_zero, Nat.zero_add, Nat.toDigits_of_lt_base small, shown]
      rfl
    · rw [List.head?_append_of_ne_nil _ single] at lead
      have same := ih single (fun char member => ascii char (by simp [member])) lead
      rw [← Nat.toDigits_append_toDigits (by decide) (pos_of_toDigits same lead) small, same,
        Nat.toDigits_of_lt_base small, shown]

end Decimals

section Headers

variable {parsing : IntParsing} {s d : String} {r : Role}

/-- The headers that name a principal. -/
structure Grammatical (s d : String) (r : Role) : Prop where
  text : s = d ++ ":" ++ r.text
  nonempty : d ≠ ""
  ascii : ∀ char ∈ d.toList, '0' ≤ char ∧ char ≤ '9'
  lead : d.toList.head? ≠ some '0'
  short : d.length ≤ 4300

private theorem isAsciiDigit_iff {char : Char} : isAsciiDigit char = true ↔ '0' ≤ char ∧ char ≤ '9' :=
  decide_eq_true_iff

private theorem ofText?_iff {text : String} : Role.ofText? text = some r ↔ text = r.text := by
  rw [Role.ofText?]
  split
  · next user => subst user; cases r <;> simp [Role.text]
  · next other =>
    split
    · next admin => subst admin; cases r <;> simp [Role.text]
    · next neither => cases r <;> simp_all [Role.text]

private theorem canonicalCompanyId_iff : canonicalCompanyId d = true ↔
    d ≠ "" ∧ (∀ char ∈ d.toList, isAsciiDigit char = true) ∧ d.toList.head? ≠ some '0' := by
  simp [canonicalCompanyId, and_assoc]

private theorem splitOnce_append {front rest : List Char} (free : ':' ∉ front) :
    splitOnce (String.ofList (front ++ ':' :: rest)) ':' = (String.ofList front, String.ofList rest) := by
  have other : ∀ char ∈ front, decide (char ≠ ':') = true := by
    intro char member
    apply decide_eq_true
    rintro rfl
    exact free member
  rw [splitOnce, String.toList_ofList, List.takeWhile_append_of_pos other, List.dropWhile_append_of_pos other]
  simp

/-- What a header comes to once it is split. -/
private theorem currentCtx_split {text : String} (free : ':' ∉ d.toList) :
    currentCtx parsing (some (d ++ ":" ++ text)) =
      if canonicalCompanyId d = true then
        (AuthContext.modelValidate parsing d text).elim (.error ⟨401, "invalid X-Auth"⟩) .ok
      else .error ⟨401, "invalid X-Auth"⟩ := by
  have split : splitOnce (d ++ ":" ++ text) ':' = (d, text) := by
    have parts := @splitOnce_append d.toList text.toList free
    rw [String.ofList_toList, String.ofList_toList] at parts
    rw [← parts]
    congr 1
    apply String.toList_inj.mp
    simp
  have separated : ((d ++ ":" ++ text).isEmpty || !(d ++ ":" ++ text).toList.contains ':') = false := by
    simp
  rw [currentCtx, separated, if_neg Bool.false_ne_true, split]
  dsimp only
  cases canonicalCompanyId d with
  | false => rfl
  | true => cases AuthContext.modelValidate parsing d text <;> rfl

private theorem modelValidate_iff {text : String} {ctx : AuthContext} (canonical : canonicalCompanyId d = true) :
    AuthContext.modelValidate parsing d text = some ctx ↔
      d.length ≤ 4300 ∧ text = ctx.role.text ∧ toString ctx.companyId = d := by
  obtain ⟨nonempty, ascii, lead⟩ := canonicalCompanyId_iff.mp canonical
  have shown := toDigits_ofDigitChars (by simpa using nonempty) ascii lead
  have positive := pos_of_toDigits shown lead
  have printed : toString (Nat.ofDigitChars 10 d.toList 0) = d := by
    rw [Nat.toString_eq_ofList_toDigits, shown, String.ofList_toList]
  have injective : ∀ n : ℕ, toString n = d → n = Nat.ofDigitChars 10 d.toList 0 := by
    rintro n rfl
    rw [Nat.toString_eq_ofList_toDigits, String.toList_ofList, Nat.ofDigitChars_ten_toDigits]
  rw [AuthContext.modelValidate, parsing.digits d nonempty ascii]
  constructor
  · intro validated
    obtain ⟨id, parsed, rest⟩ := Option.bind_eq_some_iff.mp validated
    obtain ⟨role, known, rest⟩ := Option.bind_eq_some_iff.mp rest
    by_cases short : d.length ≤ INT_PARSING_SIZE
    · rw [if_pos short, Option.some.injEq] at parsed
      subst parsed
      rw [dif_pos (by omega)] at rest
      cases rest
      exact ⟨short, ofText?_iff.mp known, printed⟩
    · rw [if_neg short] at parsed
      cases parsed
  · rintro ⟨short, role, same⟩
    obtain ⟨companyId, _, above⟩ := ctx
    obtain rfl := injective companyId same
    rw [if_pos (show d.length ≤ INT_PARSING_SIZE from short), Option.bind_eq_bind, Option.bind_some,
      ofText?_iff.mpr role, Option.bind_eq_bind, Option.bind_some, dif_pos (by omega)]
    rfl

/-- A header is accepted exactly if it is grammatical, as the principal that it prints. -/
private theorem currentCtx_iff {ctx : AuthContext} : currentCtx parsing (some s) = .ok ctx ↔
    ∃ d, Grammatical s d ctx.role ∧ toString ctx.companyId = d := by
  constructor
  · intro accepted
    by_cases member : ':' ∈ s.toList
    · obtain ⟨front, rest, same, free⟩ := List.eq_append_cons_of_mem member
      have text : s = String.ofList front ++ ":" ++ String.ofList rest := by
        apply String.toList_inj.mp
        simp [same]
      rw [text, currentCtx_split (by simpa using free)] at accepted
      by_cases canonical : canonicalCompanyId (String.ofList front) = true
      · rw [if_pos canonical] at accepted
        cases validated : AuthContext.modelValidate parsing (String.ofList front) (String.ofList rest) with
        | none =>
          rw [validated] at accepted
          cases accepted
        | some found =>
          rw [validated] at accepted
          obtain rfl := Except.ok.inj accepted
          obtain ⟨short, role, printed⟩ := (modelValidate_iff canonical).mp validated
          obtain ⟨nonempty, ascii, lead⟩ := canonicalCompanyId_iff.mp canonical
          exact ⟨_, ⟨role ▸ text, nonempty, fun char inside => isAsciiDigit_iff.mp (ascii char inside), lead, short⟩,
            printed⟩
      · rw [if_neg canonical] at accepted
        cases accepted
    · have missing : (s.isEmpty || !s.toList.contains ':') = true := by simp [member]
      rw [currentCtx, if_pos missing] at accepted
      cases accepted
  · rintro ⟨d, ⟨rfl, nonempty, ascii, lead, short⟩, printed⟩
    have digits : ∀ char ∈ d.toList, isAsciiDigit char = true :=
      fun char inside => isAsciiDigit_iff.mpr (ascii char inside)
    have canonical := canonicalCompanyId_iff.mpr ⟨nonempty, digits, lead⟩
    have free : ':' ∉ d.toList := by
      intro inside
      exact absurd (digits ':' inside) (by decide)
    rw [currentCtx_split free, if_pos canonical, (modelValidate_iff canonical).mpr ⟨short, rfl, printed⟩]
    rfl

private theorem currentCtx_refuses {xAuth : Option String} {error : HTTPException}
    (refused : currentCtx parsing xAuth = .error error) : error.statusCode = 401 := by
  unfold currentCtx at refused
  split at refused
  · cases refused
    rfl
  · split at refused
    · cases refused
      rfl
    · dsimp only at refused
      split at refused
      · cases refused
        rfl
      · split at refused <;> cases refused
        rfl

/-- `current_ctx` accepts the headers `d:r` with `d` digits without a leading zero, not too many, and `r` a role;
the principal of the context is the header again, so no two headers are one principal. All others are refused with
`401`. -/
theorem current_ctx_grammar (parsing : IntParsing) (s : String) :
    ((∃ ctx, currentCtx parsing (some s) = .ok ctx) ↔ ∃ d r, Grammatical s d r) ∧
    (∀ ctx, currentCtx parsing (some s) = .ok ctx → principal ctx.companyId ctx.role = s) ∧
    (∀ s' ctx ctx', currentCtx parsing (some s) = .ok ctx → currentCtx parsing (some s') = .ok ctx' → s ≠ s' →
      (ctx.companyId, ctx.role) ≠ (ctx'.companyId, ctx'.role)) ∧
    ∀ error, currentCtx parsing (some s) = .error error → error.statusCode = 401 := by
  have prints : ∀ {s ctx}, currentCtx parsing (some s) = .ok ctx → principal ctx.companyId ctx.role = s := by
    intro s ctx accepted
    obtain ⟨d, grammatical, printed⟩ := currentCtx_iff.mp accepted
    rw [principal, printed, ← grammatical.text]
  refine ⟨⟨?_, ?_⟩, fun ctx => prints, ?_, fun error => currentCtx_refuses⟩
  · rintro ⟨ctx, accepted⟩
    obtain ⟨d, grammatical, _⟩ := currentCtx_iff.mp accepted
    exact ⟨d, _, grammatical⟩
  · rintro ⟨d, r, grammatical⟩
    have ascii : ∀ char ∈ d.toList, isAsciiDigit char = true :=
      fun char inside => isAsciiDigit_iff.mpr (grammatical.ascii char inside)
    have shown := toDigits_ofDigitChars (by simpa using grammatical.nonempty) ascii grammatical.lead
    refine ⟨⟨Nat.ofDigitChars 10 d.toList 0, r, pos_of_toDigits shown grammatical.lead⟩,
      currentCtx_iff.mpr ⟨d, grammatical, ?_⟩⟩
    rw [Nat.toString_eq_ofList_toDigits, shown, String.ofList_toList]
  · intro s' ctx ctx' accepted accepted' different same
    rw [Prod.mk.injEq] at same
    apply different
    rw [← prints accepted, ← prints accepted', same.1, same.2]

/-- Integers are read from decimal digits alone. -/
def decimalDigits : IntParsing where
  parse text :=
    if text ≠ "" ∧ text.toList.all isAsciiDigit ∧ text.length ≤ INT_PARSING_SIZE then
      some (Nat.ofDigitChars 10 text.toList 0)
    else none
  digits text nonempty ascii := by
    have all := List.all_eq_true.mpr ascii
    simp [nonempty, all]

theorem current_ctx_grammar_decimal : ∃ ctx, currentCtx decimalDigits (some "42:admin") = .ok ctx :=
  (current_ctx_grammar decimalDigits "42:admin").1.mpr
    ⟨"42", .admin, rfl, by decide, by simp, by simp, by decide +kernel⟩

example : (currentCtx decimalDigits (some "42:admin:user")).isOk = false := by decide +kernel

end Headers

end JobRelay.Guarantees
