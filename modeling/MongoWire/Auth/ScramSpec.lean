import MongoWire.Auth.Scram

/-!
# What the SCRAM parsers accept

Each parser is equivalent to a statement about the comma-separated parts of
the message.
-/

open MongoWire.Lib MongoWire.Lib.Outcome

namespace MongoWire

open Scram

namespace Scram

/-! ## Attributes -/

@[simp] theorem toList_attr (key : Char) (value : String) :
    (attr key value).toList = key :: '=' :: value.toList := by
  unfold attr
  simp

theorem attr_inj {k k' : Char} {v v' : String} (h : attr k v = attr k' v') : k = k' ∧ v = v' := by
  have := congrArg String.toList h
  simp only [toList_attr, List.cons.injEq, true_and] at this
  exact ⟨this.1, String.toList_inj.mp this.2⟩

theorem attr_eq_append {key : Char} (s : String) (h : s = String.singleton key ++ "=")
    (value : String) : attr key value = s ++ value := by
  rw [h]
  rfl

theorem parseAttribute_eq_ok (part : String) (a : Char × String) :
    parseAttribute part = .ok a ↔ part = attr a.1 a.2 := by
  obtain ⟨key, value⟩ := a
  rw [← String.toList_inj, toList_attr]
  unfold parseAttribute
  constructor
  · intro h
    split at h
    · rename_i heq
      simp only [ok.injEq, Prod.mk.injEq] at h
      obtain ⟨rfl, rfl⟩ := h
      simp [heq]
    · cases h
  · intro h
    rw [h]
    simp

theorem parseAttributes_eq_ok (msg : String) (attrs : List (Char × String)) :
    parseAttributes msg = .ok attrs ↔ Str.split ',' msg = attrs.map fun a => attr a.1 a.2 := by
  unfold parseAttributes
  generalize Str.split ',' msg = parts
  induction parts generalizing attrs with
  | nil => cases attrs <;> simp
  | cons part parts ih =>
    rw [List.mapM_cons, bind_eq_ok]
    simp only [bind_eq_ok, parseAttribute_eq_ok, ih, pure_eq, ok.injEq]
    constructor
    · rintro ⟨a, rfl, as, rfl, rfl⟩
      rfl
    · intro h
      obtain ⟨a, as, rfl, ha, has⟩ := List.map_eq_cons_iff.mp h.symm
      exact ⟨a, ha.symm, as, has.symm, rfl⟩

theorem comma_not_mem_attr {key : Char} {value : String} (hkey : key ≠ ',')
    (hvalue : ',' ∉ value.toList) : ',' ∉ (attr key value).toList := by
  rw [toList_attr]
  simp [hkey.symm, hvalue]

theorem split_attr {key : Char} {value : String} (hkey : key ≠ ',') (hvalue : ',' ∉ value.toList) :
    Str.split ',' (attr key value) = [attr key value] :=
  Str.split_of_not_mem (comma_not_mem_attr hkey hvalue)

theorem split_attr_comma {key : Char} {value : String} (hkey : key ≠ ',')
    (hvalue : ',' ∉ value.toList) (rest : String) :
    Str.split ',' (attr key value ++ "," ++ rest) = attr key value :: Str.split ',' rest :=
  Str.split_append_sep (comma_not_mem_attr hkey hvalue) rest

theorem split_attr_attr_comma {k k' : Char} {v v' : String} (hk : k ≠ ',') (hv : ',' ∉ v.toList)
    (hk' : k' ≠ ',') (hv' : ',' ∉ v'.toList) (rest : String) :
    Str.split ',' (attr k v ++ "," ++ attr k' v' ++ "," ++ rest) =
      attr k v :: attr k' v' :: Str.split ',' rest := by
  have hassoc : attr k v ++ "," ++ attr k' v' ++ "," ++ rest =
      attr k v ++ "," ++ (attr k' v' ++ "," ++ rest) := by
    simp only [String.append_assoc]
  rw [hassoc, split_attr_comma hk hv, split_attr_comma hk' hv']

/-- Some part of the message is an attribute with this key. -/
def HasKey (key : Char) (msg : String) : Prop := ∃ value, attr key value ∈ Str.split ',' msg

theorem HasKey.mem {key : Char} {msg : String} {attrs : List (Char × String)} (h : HasKey key msg)
    (hparse : parseAttributes msg = .ok attrs) : ∃ value, (key, value) ∈ attrs := by
  obtain ⟨value, hmem⟩ := h
  rw [(parseAttributes_eq_ok _ _).mp hparse, List.mem_map] at hmem
  obtain ⟨⟨k, v⟩, hkv, heq⟩ := hmem
  obtain ⟨rfl, rfl⟩ := attr_inj heq
  exact ⟨v, hkv⟩

end Scram

/-! ## The server-first message -/

namespace ServerFirst

variable {crypto : Crypto}

/-- An iteration count that a peer may send. -/
def iterationCount (value : String) : Option UInt32 :=
  (Str.parseU32 value).filter fun n => 1 ≤ n ∧ n ≤ maxScramIterations

theorem iterationCount_eq_some (value : String) (n : UInt32) :
    iterationCount value = some n ↔ Str.parseU32 value = some n ∧ 1 ≤ n ∧ n ≤ maxScramIterations := by
  unfold iterationCount
  simp [Option.filter_eq_some_iff]

/-- What is known after the attributes: the first of each kind counts. -/
def Seen.after (crypto : Crypto) (seen : Seen) (attrs : List (Char × String)) : Seen where
  nonce := seen.nonce.or (attrs.lookup nonceKey)
  salt := seen.salt.or ((attrs.lookup saltKey).bind crypto.base64Decode)
  iterations := seen.iterations.or ((attrs.lookup iterationKey).bind iterationCount)

/-- The first salt and the first iteration count can be read, where they are still wanted. -/
def Seen.Readable (crypto : Crypto) (seen : Seen) (attrs : List (Char × String)) : Prop :=
  (seen.salt = none → ∀ v, attrs.lookup saltKey = some v → (crypto.base64Decode v).isSome) ∧
  (seen.iterations = none → ∀ v, attrs.lookup iterationKey = some v → (iterationCount v).isSome)

theorem iterations_in_range (n : UInt32) :
    ¬ (n = 0 ∨ n > maxScramIterations) ↔ 1 ≤ n ∧ n ≤ maxScramIterations := by
  unfold maxScramIterations
  simp only [← UInt32.toNat_inj, gt_iff_lt, UInt32.lt_iff_toNat_lt, UInt32.le_iff_toNat_le]
  simp
  omega

theorem Seen.add_then (seen : Seen) (a : Char × String) (attrs : List (Char × String))
    (seen' : Seen) :
    (seen.Readable crypto (a :: attrs) ∧ seen' = seen.after crypto (a :: attrs)) ↔
      ∃ next, seen.add crypto a = .ok next ∧
        next.Readable crypto attrs ∧ seen' = next.after crypto attrs := by
  obtain ⟨key, value⟩ := a
  obtain ⟨nonce, salt, iterations⟩ := seen
  simp only [Seen.Readable, Seen.after, Seen.add, List.lookup_cons]
  by_cases hr : key = nonceKey
  · subst hr
    cases nonce <;> simp [nonceKey, saltKey, iterationKey]
  by_cases hs : key = saltKey
  · subst hs
    cases salt with
    | none => cases hd : crypto.base64Decode value <;> simp [nonceKey, saltKey, iterationKey, hd]
    | some b => simp [nonceKey, saltKey, iterationKey]
  by_cases hi : key = iterationKey
  · subst hi
    cases iterations with
    | none =>
      cases hp : Str.parseU32 value with
      | none => simp [nonceKey, saltKey, iterationKey, iterationCount, hp]
      | some n =>
        by_cases hn : n = 0 ∨ n > maxScramIterations
        · have hrange := mt (iterations_in_range n).mpr (not_not.mpr hn)
          simp [nonceKey, saltKey, iterationKey, iterationCount, hp, hn, Option.filter, hrange]
        · have hrange := (iterations_in_range n).mp hn
          simp [nonceKey, saltKey, iterationKey, iterationCount, hp, hn, Option.filter, hrange]
    | some b => simp [nonceKey, saltKey, iterationKey]
  have hlookup : ∀ k, key ≠ k → (k == key) = false := by
    intro k hk
    simp [hk.symm]
  simp [hlookup _ hr, hlookup _ hs, hlookup _ hi, hr, hs, hi]

theorem Seen.foldlM_add_eq_ok (attrs : List (Char × String)) (seen seen' : Seen) :
    attrs.foldlM (Seen.add crypto) seen = .ok seen' ↔
      seen.Readable crypto attrs ∧ seen' = seen.after crypto attrs := by
  induction attrs generalizing seen with
  | nil =>
    rw [List.foldlM_nil, pure_eq, ok.injEq, eq_comm]
    simp [Seen.Readable, Seen.after]
  | cons a attrs ih =>
    rw [Seen.add_then, List.foldlM_cons, bind_eq_ok]
    simp only [ih]

/-- The parts of a server-first message that gives `first`. -/
structure Describes (crypto : Crypto) (first : ServerFirst) (attrs : List (Char × String)) : Prop where
  nonce : attrs.lookup nonceKey = some first.nonce
  nonce_ne : first.nonce ≠ ""
  salt : ∃ v, attrs.lookup saltKey = some v ∧ crypto.base64Decode v = some first.salt
  iterations : ∃ v, attrs.lookup iterationKey = some v ∧ Str.parseU32 v = some first.iterations
  one_le : 1 ≤ first.iterations
  le_max : first.iterations ≤ maxScramIterations

theorem parse_eq_ok (msg : String) (first : ServerFirst) :
    parse crypto msg = .ok first ↔
      ∃ attrs, parseAttributes msg = .ok attrs ∧ first.Describes crypto attrs := by
  unfold parse
  simp only [bind_eq_ok, Seen.foldlM_add_eq_ok, ofOption_eq_ok, pure_eq, ok.injEq]
  refine exists_congr fun attrs => and_congr_right fun _ => ?_
  constructor
  · rintro ⟨_, ⟨-, rfl⟩, nonce, hnonce, salt, hsalt, iterations, hiter, rfl⟩
    simp only [Seen.after, Option.none_or, Option.bind_eq_some_iff, Option.filter_eq_some_iff,
      iterationCount_eq_some, decide_eq_true_eq] at hnonce hsalt hiter
    obtain ⟨vi, hvi, hparse, hone, hmax⟩ := hiter
    exact ⟨hnonce.1, hnonce.2, hsalt, ⟨vi, hvi, hparse⟩, hone, hmax⟩
  · rintro ⟨hnonce, hne, ⟨vs, hvs, hsalt⟩, ⟨vi, hvi, hiter⟩, hone, hmax⟩
    have hcount := (iterationCount_eq_some vi _).mpr ⟨hiter, hone, hmax⟩
    refine ⟨_, ⟨⟨?_, ?_⟩, rfl⟩, first.nonce, ?_, first.salt, ?_, first.iterations, ?_, rfl⟩
    · intro _ v hv
      rw [hvs, Option.some.injEq] at hv
      subst hv
      rw [hsalt, Option.isSome_some]
    · intro _ v hv
      rw [hvi, Option.some.injEq] at hv
      subst hv
      rw [hcount, Option.isSome_some]
    · simp [Seen.after, hnonce, hne]
    · simp [Seen.after, hvs, hsalt]
    · simp [Seen.after, hvi, hcount]

end ServerFirst

/-! ## The client-final message -/

namespace ScramServer

def Seen.attrs (seen : Seen) : List (Char × String) :=
  seen.channelBinding.toList.map (channelBindingKey, ·) ++ seen.nonce.toList.map (nonceKey, ·) ++
    seen.proof.toList.map (proofKey, ·)

theorem Seen.add_perm (seen : Seen) (a : Char × String) (seen' : Seen)
    (h : seen.add a = .ok seen') : (a :: seen.attrs).Perm seen'.attrs := by
  obtain ⟨key, value⟩ := a
  obtain ⟨channelBinding, nonce, proof⟩ := seen
  simp only [Seen.add] at h
  split at h
  · rename_i hc
    obtain ⟨rfl, rfl⟩ := hc
    cases h
    simp [Seen.attrs]
  split at h
  · rename_i hr
    obtain ⟨rfl, rfl⟩ := hr
    cases h
    simpa [Seen.attrs] using List.perm_middle.symm
  split at h
  · rename_i hp
    obtain ⟨rfl, rfl⟩ := hp
    cases h
    simp only [Seen.attrs, Option.toList_none, Option.toList_some, List.map_nil, List.append_nil,
      List.map_cons]
    exact (List.perm_append_singleton _ _).symm
  · cases h

theorem Seen.foldlM_add_perm (attrs : List (Char × String)) (seen seen' : Seen)
    (h : attrs.foldlM Seen.add seen = .ok seen') : (attrs ++ seen.attrs).Perm seen'.attrs := by
  induction attrs generalizing seen with
  | nil =>
    cases h
    exact List.Perm.refl _
  | cons a attrs ih =>
    rw [List.foldlM_cons, bind_eq_ok] at h
    obtain ⟨next, hadd, hrest⟩ := h
    have hstep : (a :: (attrs ++ seen.attrs)).Perm (attrs ++ (a :: seen.attrs)) :=
      List.perm_middle.symm
    exact hstep.trans (((Seen.add_perm _ _ _ hadd).append_left attrs).trans (ih next hrest))

theorem readClientFinal_perm (msg : String) (channelBinding nonce proof : String)
    (h : readClientFinal msg = .ok ⟨some channelBinding, some nonce, some proof⟩) :
    (Str.split ',' msg).Perm
      [attr channelBindingKey channelBinding, attr nonceKey nonce, attr proofKey proof] := by
  unfold readClientFinal at h
  rw [bind_eq_ok] at h
  obtain ⟨attrs, hparse, hfold⟩ := h
  rw [(parseAttributes_eq_ok _ _).mp hparse]
  have hperm := Seen.foldlM_add_perm _ _ _ hfold
  rw [show Seen.attrs ⟨none, none, none⟩ = [] from rfl, List.append_nil] at hperm
  exact hperm.map _

theorem clientFirstNonce_eq_ok (attrs : List (Char × String)) (nonce : String) :
    clientFirstNonce attrs = .ok nonce ↔
      ∃ claimed rest, attrs = (usernameKey, claimed) :: (nonceKey, nonce) :: rest ∧ nonce ≠ "" := by
  unfold clientFirstNonce
  split
  · rename_i key claimed attrs'
    rw [ite_err_eq_ok, not_not]
    rcases attrs' with _ | ⟨⟨key', clientNonce⟩, rest⟩
    · simp
    · simp only [ite_err_eq_ok, not_not, ok.injEq, List.cons.injEq, Prod.mk.injEq]
      constructor
      · rintro ⟨rfl, rfl, hne, rfl⟩
        exact ⟨claimed, rest, ⟨⟨rfl, rfl⟩, ⟨rfl, rfl⟩, rfl⟩, hne⟩
      · rintro ⟨_, _, ⟨⟨rfl, -⟩, ⟨rfl, rfl⟩, -⟩, hne⟩
        exact ⟨rfl, rfl, hne, rfl⟩
  · simp

theorem stripGs2Header_eq_ok (msg bare : String) :
    stripGs2Header msg = .ok bare ↔ msg = gs2NoBindingHeader ++ bare := by
  rw [← Str.stripPrefix_eq_some]
  unfold stripGs2Header
  split
  · rename_i heq
    rw [heq, ok.injEq, Option.some.injEq]
  · rename_i heq
    rw [heq]
    split <;> simp

end ScramServer

/-! ## The parsers always come back -/

theorem Scram.returns_parseAttributes (msg : String) : (parseAttributes msg).Returns := by
  refine returns_mapM fun part _ => ?_
  unfold parseAttribute
  split <;> trivial

theorem ServerFirst.returns_add (crypto : Crypto) (seen : ServerFirst.Seen) (a : Char × String) :
    (seen.add crypto a).Returns := by
  simp only [ServerFirst.Seen.add]
  repeat' split
  all_goals simp [returns_bind, returns_ite_err]

theorem ServerFirst.returns_parse (crypto : Crypto) (msg : String) :
    (ServerFirst.parse crypto msg).Returns := by
  unfold ServerFirst.parse
  simp [returns_bind, returns_parseAttributes, returns_foldlM (ServerFirst.returns_add crypto)]

theorem ScramServer.returns_add (seen : ScramServer.Seen) (a : Char × String) :
    (seen.add a).Returns := by
  simp only [ScramServer.Seen.add]
  repeat' split
  all_goals trivial

theorem ScramServer.returns_readClientFinal (msg : String) :
    (ScramServer.readClientFinal msg).Returns := by
  unfold ScramServer.readClientFinal
  simp [returns_bind, returns_parseAttributes, returns_foldlM ScramServer.returns_add]

theorem ScramServer.returns_stripGs2Header (msg : String) :
    (ScramServer.stripGs2Header msg).Returns := by
  unfold ScramServer.stripGs2Header
  repeat' split
  all_goals trivial

theorem ScramServer.returns_clientFirstNonce (attrs : List (Char × String)) :
    (ScramServer.clientFirstNonce attrs).Returns := by
  unfold ScramServer.clientFirstNonce
  repeat' split
  all_goals trivial

theorem ScramClient.returns_serverFinalVerifier (msg : String) :
    (ScramClient.serverFinalVerifier msg).Returns := by
  unfold ScramClient.serverFinalVerifier
  rw [returns_bind]
  refine ⟨returns_parseAttributes msg, fun attrs _ => ?_⟩
  repeat' split
  all_goals trivial

end MongoWire
