import LinkGuard.Proofs.Text.Written
import LinkGuard.Proofs.Time
import LinkGuard.Proofs.Token.Signed

/-! # The verdict on a text

Which texts are tokens is said here without the verifier: by the delimiters in them, the one written
form of the digest, and an expiry that reads as a second of the calendar. Everything else is
invalid, for good, and a token is invalid never.
-/

namespace LinkGuard.Token

/-- The text is a token that proves an identity until a second. -/
structure Genuine (secret : List UInt8) (text identity expiry : String) (second : Int) : Prop where
  delimiters : text.toList.count ':' = 2
  written : text = identity ++ ":" ++ expiry ++ ":" ++
    String.ofList (Base64Url.encode (Hmac.digest secret (Text.bytes (identity ++ ":" ++ expiry))))
  named : Numeral.Names expiry.toList second
  word : -2 ^ 63 ≤ second ∧ second < 2 ^ 63
  calendar : -8334601228800 ≤ second ∧ second ≤ 8210266876799

variable {secret : List UInt8} {text identity expiry : String} {second : Int}

theorem ofSecond?_eq_some_iff {t : Instant} :
    Instant.ofSecond? second = some t ↔ t.nanos = second * 1000000000 :=
  Instant.ofNanos?_eq_some_iff

theorem ofSecond?_isSome_iff :
    (Instant.ofSecond? second).isSome ↔ -8334601228800 ≤ second ∧ second ≤ 8210266876799 := by
  simp only [Instant.ofSecond?, Instant.ofNanos?]
  split
  case isTrue inside => simp only [Option.isSome_some, true_iff]; omega
  case isFalse outside => simp only [Option.isSome_none, Bool.false_eq_true, false_iff]; omega

theorem fitsWord_iff : Numeral.fitsWord second ↔ -2 ^ 63 ≤ second ∧ second < 2 ^ 63 := by
  simp only [Numeral.fitsWord, Bool.and_eq_true, decide_eq_true_eq]
  omega

theorem message_eq (identity expiry : String) :
    message identity expiry = Text.bytes (identity ++ ":" ++ expiry) := by
  simp only [message, Text.bytes_append]
  rfl

theorem write_eq (secret : List UInt8) (identity expiry : String) :
    write identity expiry (signature secret identity expiry) = identity ++ ":" ++ expiry ++ ":" ++
      String.ofList (Base64Url.encode
        (Hmac.digest secret (Text.bytes (identity ++ ":" ++ expiry)))) := by
  rw [← message_eq]
  rfl

theorem Signed.count_delimiter (signed : Signed secret text identity expiry) :
    text.toList.count ':' = 2 := by
  have three := Text.length_fields delimiter text.toList
  rw [signed] at three
  exact (Nat.succ.inj three).symm

theorem Genuine.signed (genuine : Genuine secret text identity expiry second) :
    Signed secret text identity expiry := by
  have two := genuine.delimiters
  have written := genuine.written.trans (write_eq secret identity expiry).symm
  rw [genuine.written] at two
  simp only [String.toList_append, List.count_append, String.toList_ofList] at two
  have one : ":".toList.count ':' = 1 := rfl
  have free : carries identity ∧ carries expiry := by
    simp only [carries_iff, ← List.count_eq_zero, delimiter]
    omega
  rw [written]
  exact signed_write free.1 free.2

theorem genuine_iff : Genuine secret text identity expiry second ↔
    Signed secret text identity expiry ∧ Numeral.word? 10 expiry.toList = some second ∧
      (Instant.ofSecond? second).isSome := by
  rw [Numeral.word?_eq_some_iff, fitsWord_iff, ofSecond?_isSome_iff]
  constructor
  · intro genuine
    exact ⟨genuine.signed, ⟨genuine.named, genuine.word⟩, genuine.calendar⟩
  · rintro ⟨signed, ⟨named, word⟩, calendar⟩
    exact ⟨signed.count_delimiter, signed.eq_write.trans (write_eq secret identity expiry), named,
      word, calendar⟩

theorem verify_of_genuine (genuine : Genuine secret text identity expiry second) (now : Instant) :
    verify secret text now =
      if now.nanos < second * 1000000000 then .ok identity else .error .expired := by
  obtain ⟨signed, read, inside⟩ := genuine_iff.mp genuine
  obtain ⟨expiresAt, begins⟩ := Option.isSome_iff_exists.mp inside
  have read : expiry? expiry.toList = some expiresAt := by
    rw [expiry?, read, Option.bind_some, begins]
  rw [verify_of_signed signed]
  simp only [read, Instant.le_iff, ofSecond?_eq_some_iff.mp begins, ← Int.not_lt, ite_not]

theorem genuine_of_verify {now : Instant} (accepted : verify secret text now ≠ .error .invalid) :
    ∃ identity expiry second, Genuine secret text identity expiry second := by
  obtain ⟨identity, expiry, signed⟩ := signed_of_verify accepted
  rw [verify_of_signed signed] at accepted
  cases read : expiry? expiry.toList with
  | none =>
      rw [read] at accepted
      exact absurd rfl accepted
  | some expiresAt =>
      obtain ⟨second, number, begins⟩ := Option.bind_eq_some_iff.mp read
      exact ⟨identity, expiry, second,
        genuine_iff.mpr ⟨signed, number, Option.isSome_of_eq_some begins⟩⟩

/-- A text is not invalid if and only if it is a token. Then it proves its identity before its
    second begins, and is expired from there on. Any other text is invalid whenever it is handed in,
    and no other error is given. -/
theorem verdict_exact (secret : List UInt8) (text : String) (now : Instant) :
    (verify secret text now ≠ .error .invalid ↔
      ∃ identity expiry second, Genuine secret text identity expiry second) ∧
    (∀ identity expiry second, Genuine secret text identity expiry second →
      verify secret text now =
        if now.nanos < second * 1000000000 then .ok identity else .error .expired) ∧
    ((¬ ∃ identity expiry second, Genuine secret text identity expiry second) →
      ∀ later, verify secret text later = .error .invalid) ∧
    verify secret text now ≠ .error .malformedPayload ∧
    verify secret text now ≠ .error .weakSecret ∧
    (verify secret text now = .error .expired →
      ∃ identity expiry, Signed secret text identity expiry) := by
  by_cases token : ∃ identity expiry second, Genuine secret text identity expiry second
  · obtain ⟨identity, expiry, second, genuine⟩ := token
    have verdict := verify_of_genuine genuine now
    have proves : verify secret text now = .ok identity ∨
        verify secret text now = .error .expired := by
      rw [verdict]
      split
      · exact .inl rfl
      · exact .inr rfl
    refine ⟨⟨fun _ => ⟨identity, expiry, second, genuine⟩, fun _ => ?_⟩, fun _ _ _ genuine =>
      verify_of_genuine genuine now, fun none => absurd ⟨_, _, _, genuine⟩ none, ?_, ?_,
      fun _ => ⟨identity, expiry, genuine.signed⟩⟩
    all_goals
      rcases proves with proves | expired
      · rw [proves]
        nofun
      · rw [expired]
        nofun
  · have invalid : ∀ later, verify secret text later = .error .invalid := fun later =>
      Classical.not_not.mp fun accepted => token (genuine_of_verify accepted)
    rw [invalid now]
    exact ⟨⟨fun accepted => absurd rfl accepted, fun some => absurd some token⟩,
      fun _ _ _ genuine => absurd ⟨_, _, _, genuine⟩ token, fun _ => invalid, nofun, nofun, nofun⟩

end LinkGuard.Token
