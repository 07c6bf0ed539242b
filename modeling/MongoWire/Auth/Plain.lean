import MongoWire.Auth.Scram

/-!
# PLAIN payloads

`mongo_common/src/auth/plain.rs`: two identities and a password in one byte
string, with a NUL after each of the identities.
-/

open MongoWire.Lib MongoWire.Lib.Outcome

namespace MongoWire.Plain

structure PlainMessage where
  authzId : String
  authcId : String
  password : String
  deriving DecidableEq

def asUtf8 (bytes : Bytes) : Outcome AuthError String :=
  ofOption (.invalidMessage "payload is not valid UTF-8") (fromUtf8 bytes)

def parseClientPayload (payload : Bytes) : Outcome AuthError PlainMessage :=
  match payload.splitOn 0 with
  | [authzId, authcId, password] => do
    let authzId ← asUtf8 authzId
    let authcId ← asUtf8 authcId
    let password ← asUtf8 password
    return { authzId, authcId, password }
  | _ => .err (.invalidMessage "expected two NUL separators")

def buildClientPayload (authzId authcId password : String) : Bytes :=
  utf8 authzId ++ [0] ++ utf8 authcId ++ [0] ++ utf8 password

/-! ## The three fields -/

theorem splitOn_eq_three {payload x y z : Bytes} :
    payload.splitOn 0 = [x, y, z] ↔
      payload = x ++ [0] ++ y ++ [0] ++ z ∧ 0 ∉ x ∧ 0 ∉ y ∧ 0 ∉ z := by
  constructor
  · intro h
    obtain ⟨hx, ⟨-, hnil⟩ | ⟨tail, rfl, htail⟩⟩ := Str.splitOn_eq_cons.mp h
    · cases hnil
    obtain ⟨hy, ⟨-, hnil⟩ | ⟨last, rfl, hlast⟩⟩ := Str.splitOn_eq_cons.mp htail
    · cases hnil
    obtain ⟨hz, ⟨rfl, -⟩ | ⟨rest, -, hrest⟩⟩ := Str.splitOn_eq_cons.mp hlast
    · exact ⟨by simp, hx, hy, hz⟩
    · exact absurd hrest (List.splitOn_ne_nil _ _)
  · rintro ⟨rfl, hx, hy, hz⟩
    have hpayload : x ++ [0] ++ y ++ [0] ++ z = x ++ 0 :: (y ++ 0 :: z) := by simp
    rw [hpayload, List.splitOn_append_cons_self_of_not_mem hx,
      List.splitOn_append_cons_self_of_not_mem hy, List.splitOn_eq_singleton hz]

theorem asUtf8_eq_ok (bytes : Bytes) (s : String) : asUtf8 bytes = .ok s ↔ bytes = utf8 s := by
  unfold asUtf8
  rw [ofOption_eq_ok, fromUtf8_eq_some]

theorem parseClientPayload_eq_ok (payload : Bytes) (m : PlainMessage) :
    parseClientPayload payload = .ok m ↔
      payload = buildClientPayload m.authzId m.authcId m.password ∧
        0 ∉ utf8 m.authzId ∧ 0 ∉ utf8 m.authcId ∧ 0 ∉ utf8 m.password := by
  unfold buildClientPayload
  rw [← splitOn_eq_three]
  unfold parseClientPayload
  split
  · rename_i x y z hsplit
    simp only [hsplit, bind_eq_ok, asUtf8_eq_ok, pure_eq, ok.injEq]
    constructor
    · rintro ⟨authzId, rfl, authcId, rfl, password, rfl, rfl⟩
      rfl
    · intro h
      cases h
      exact ⟨_, rfl, _, rfl, _, rfl, rfl⟩
  · rename_i hsplit
    constructor
    · intro h
      cases h
    · intro h
      exact absurd h (hsplit _ _ _)

theorem parseClientPayload_of_nul {a b c : String} (h : 0 ∈ utf8 a ∨ 0 ∈ utf8 b ∨ 0 ∈ utf8 c) :
    parseClientPayload (buildClientPayload a b c) =
      .err (.invalidMessage "expected two NUL separators") := by
  unfold parseClientPayload
  split
  · rename_i x y z hsplit
    obtain ⟨hpayload, hx, hy, hz⟩ := splitOn_eq_three.mp hsplit
    -- both sides have two separators, so a NUL in a field is one too many
    have hcount := congrArg (List.count 0) hpayload
    simp only [buildClientPayload, List.count_append, List.count_eq_zero_of_not_mem hx,
      List.count_eq_zero_of_not_mem hy, List.count_eq_zero_of_not_mem hz] at hcount
    simp only [← List.count_pos_iff] at h
    omega
  · rfl

/-! ## Round trips -/

/-- A payload gives back its fields exactly when no field holds a NUL, and a payload that is
taken is the one built from the fields it was taken for. -/
theorem payload_round_trip (a b c : String) :
    ('\x00' ∉ a.toList ∧ '\x00' ∉ b.toList ∧ '\x00' ∉ c.toList →
      parseClientPayload (buildClientPayload a b c) = .ok ⟨a, b, c⟩) ∧
    (¬ ('\x00' ∉ a.toList ∧ '\x00' ∉ b.toList ∧ '\x00' ∉ c.toList) →
      parseClientPayload (buildClientPayload a b c) =
        .err (.invalidMessage "expected two NUL separators")) ∧
    ∀ payload m, parseClientPayload payload = .ok m →
      buildClientPayload m.authzId m.authcId m.password = payload := by
  simp only [← nul_mem_utf8]
  refine ⟨fun h => (parseClientPayload_eq_ok _ ⟨a, b, c⟩).mpr ⟨rfl, h⟩, fun h => ?_, ?_⟩
  · apply parseClientPayload_of_nul
    by_contra hne
    simp only [not_or] at hne
    exact h hne
  · intro payload m h
    exact ((parseClientPayload_eq_ok payload m).mp h).1.symm

example : parseClientPayload [0, 117, 115, 101, 114, 0, 112, 119, 100] = .ok ⟨"", "user", "pwd"⟩ := by
  decide

end MongoWire.Plain
