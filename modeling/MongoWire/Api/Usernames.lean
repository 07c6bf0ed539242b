import MongoWire.Api.BridgeSpec
import MongoWire.Auth.Exchange

/-!
# Usernames on the wire

The client escapes a username with two replacements, and the bridge undoes them
with two more. Both are a code for each character, and only the texts of that
code are well formed.
-/

open MongoWire.Lib MongoWire.Lib.Outcome

namespace MongoWire

open Scram

/-! ## The code -/

namespace Scram

/-- What a username's character becomes. -/
def escapedChar (c : Char) : List Char :=
  if c = '=' then ['=', '3', 'D'] else if c = ',' then ['=', '2', 'C'] else [c]

/-- Every `=` is followed by `2C` or `3D`. -/
def WellEscaped (text : List Char) : Prop :=
  ∀ before after, text = before ++ '=' :: after → ['2', 'C'] <+: after ∨ ['3', 'D'] <+: after

theorem wellEscaped_nil : WellEscaped [] := by
  intro before after h
  simp at h

theorem wellEscaped_cons (c : Char) (cs : List Char) :
    WellEscaped (c :: cs) ↔
      (c = '=' → ['2', 'C'] <+: cs ∨ ['3', 'D'] <+: cs) ∧ WellEscaped cs := by
  constructor
  · intro h
    refine ⟨?_, fun before after hcs => h (c :: before) after (by rw [hcs, List.cons_append])⟩
    rintro rfl
    exact h [] cs rfl
  · rintro ⟨hfirst, hrest⟩ before after h
    rcases before with _ | ⟨b, before⟩
    · obtain ⟨rfl, rfl⟩ := List.cons.inj h
      exact hfirst rfl
    · exact hrest before after (List.cons.inj h).2

theorem toList_escapeUsername (username : String) :
    (escapeUsername username).toList = username.toList.flatMap escapedChar := by
  unfold escapeUsername
  rw [Str.toList_replaceChar, Str.toList_replaceChar, List.flatMap_assoc]
  congr 1
  funext c
  unfold escapedChar
  by_cases heq : c = '='
  · rw [if_pos heq, if_pos heq]
    decide
  · rw [if_neg heq, if_neg heq, List.flatMap_singleton]
    rfl

theorem wellEscaped_escapedChar (c : Char) {cs : List Char} (h : WellEscaped cs) :
    WellEscaped (escapedChar c ++ cs) := by
  unfold escapedChar
  split
  · simp [wellEscaped_cons, h]
  · split
    · simp [wellEscaped_cons, h]
    · rename_i heq _
      exact (wellEscaped_cons _ _).mpr ⟨fun h => absurd h heq, h⟩

theorem wellEscaped_escapeUsername (username : String) :
    WellEscaped (escapeUsername username).toList := by
  rw [toList_escapeUsername]
  induction username.toList with
  | nil => exact wellEscaped_nil
  | cons c cs ih => exact wellEscaped_escapedChar c ih

theorem WellEscaped.suffix {cs rest : List Char} (h : WellEscaped cs) (hrest : rest <:+ cs) :
    WellEscaped rest := by
  obtain ⟨front, rfl⟩ := hrest
  intro before after heq
  exact h (front ++ before) after (by rw [heq, List.append_assoc])

theorem WellEscaped.exists_flatMap {cs : List Char} (h : WellEscaped cs) (hcomma : ',' ∉ cs) :
    ∃ us : List Char, cs = us.flatMap escapedChar := by
  -- an escape is three characters, so the induction is on the length
  induction hn : cs.length using Nat.strong_induction_on generalizing cs with
  | _ n ih =>
    subst hn
    rcases cs with _ | ⟨c, cs⟩
    · exact ⟨[], rfl⟩
    · obtain ⟨hfirst, hcs⟩ := (wellEscaped_cons _ _).mp h
      have hrest (rest : List Char) (hsuffix : rest <:+ cs) :
          ∃ us : List Char, rest = us.flatMap escapedChar :=
        ih rest.length (Nat.lt_succ_of_le hsuffix.length_le) (hcs.suffix hsuffix)
          (fun hmem => hcomma (.tail _ (hsuffix.subset hmem))) rfl
      by_cases heq : c = '='
      · subst heq
        rcases hfirst rfl with ⟨rest, rfl⟩ | ⟨rest, rfl⟩
        · obtain ⟨us, rfl⟩ := hrest rest (List.suffix_append _ _)
          exact ⟨',' :: us, rfl⟩
        · obtain ⟨us, rfl⟩ := hrest rest (List.suffix_append _ _)
          exact ⟨'=' :: us, rfl⟩
      · have hc : c ≠ ',' := fun hc => hcomma (by simp [hc])
        obtain ⟨us, rfl⟩ := hrest cs (List.suffix_refl cs)
        refine ⟨c :: us, ?_⟩
        rw [List.flatMap_cons, escapedChar, if_neg heq, if_neg hc, List.singleton_append]

end Scram

/-! ## Undoing it -/

namespace ScramBridge

/-- What is left of a username's character once the commas are back. -/
def equalsEscapedChar (c : Char) : List Char := if c = '=' then ['=', '3', 'D'] else [c]

theorem replaceFrom_comma (c : Char) (rest : List Char) :
    Str.replaceFrom ['=', '2', 'C'] [','] 0 (escapedChar c ++ rest) =
      equalsEscapedChar c ++ Str.replaceFrom ['=', '2', 'C'] [','] 0 rest := by
  unfold escapedChar equalsEscapedChar
  by_cases heq : c = '='
  · rw [if_pos heq, if_pos heq]
    simp [Str.replaceFrom]
  · rw [if_neg heq, if_neg heq]
    split
    · rename_i hc
      subst hc
      simp [Str.replaceFrom]
    · simp [Str.replaceFrom, Ne.symm heq]

theorem replaceFrom_equals (c : Char) (rest : List Char) :
    Str.replaceFrom ['=', '3', 'D'] ['='] 0 (equalsEscapedChar c ++ rest) =
      [c] ++ Str.replaceFrom ['=', '3', 'D'] ['='] 0 rest := by
  unfold equalsEscapedChar
  split
  · rename_i heq
    subst heq
    simp [Str.replaceFrom]
  · rename_i heq
    simp [Str.replaceFrom, Ne.symm heq]

theorem unescapeUsername_escapeUsername (username : String) :
    unescapeUsername (escapeUsername username) = username := by
  unfold unescapeUsername
  apply String.toList_inj.mp
  rw [Str.toList_replace, Str.toList_replace, toList_escapeUsername,
    show "=2C".toList = ['=', '2', 'C'] from rfl, show ",".toList = [','] from rfl,
    show "=3D".toList = ['=', '3', 'D'] from rfl, show "=".toList = ['='] from rfl]
  rw [Str.replaceFrom_flatMap replaceFrom_comma, Str.replaceFrom_flatMap replaceFrom_equals,
    List.flatMap_singleton']

/-! ## The attribute of a client-first message -/

/-- `text` is what stands after `n=` at the front of a client-first message, up to the comma. -/
def UsernameText (msg text : String) : Prop :=
  ',' ∉ text.toList ∧ ∃ rest, (rest = "" ∨ ∃ more, rest = "," ++ more) ∧
    (msg = "n,,n=" ++ text ++ rest ∨ msg = "n=" ++ text ++ rest)

theorem bare_eq_iff (msg body : String) :
    (Str.stripPrefix "n,," msg).getD msg = "n=" ++ body ↔
      msg = "n,,n=" ++ body ∨ msg = "n=" ++ body := by
  have hheader : "n,,n=" ++ body = "n,," ++ ("n=" ++ body) := by
    rw [← String.append_assoc]
    rfl
  have hplain (t : String) : "n=" ++ body ≠ "n,," ++ t := by
    intro h
    have := congrArg String.toList h
    simp at this
  rw [hheader]
  constructor
  · intro h
    rcases hstrip : Str.stripPrefix "n,," msg with _ | t
    · rw [hstrip, Option.getD_none] at h
      exact .inr h
    · rw [hstrip, Option.getD_some] at h
      rw [(Str.stripPrefix_eq_some _ _ _).mp hstrip, h]
      exact .inl rfl
  · rintro (rfl | rfl)
    · rw [Str.stripPrefix_append, Option.getD_some]
    · rcases hstrip : Str.stripPrefix "n,," ("n=" ++ body) with _ | t
      · rfl
      · exact absurd ((Str.stripPrefix_eq_some _ _ _).mp hstrip) (hplain t)

theorem usernameText_iff (msg text : String) :
    UsernameText msg text ↔
      (Str.split ',' ((Str.stripPrefix "n,," msg).getD msg)).head? = some ("n=" ++ text) := by
  rw [Str.split_head?_eq_some]
  constructor
  · rintro ⟨hcomma, rest, hrest, hmsg⟩
    rw [String.append_assoc, String.append_assoc] at hmsg
    rw [(bare_eq_iff msg (text ++ rest)).mpr hmsg]
    refine ⟨by simpa using hcomma, ?_⟩
    rcases hrest with rfl | ⟨more, rfl⟩
    · rw [String.append_empty]
      exact .inl rfl
    · exact .inr ⟨more, by rw [String.append_assoc, String.append_assoc]; rfl⟩
  · rintro ⟨hcomma, hbare⟩
    refine ⟨by simpa using hcomma, ?_⟩
    rcases hbare with hbare | ⟨more, hbare⟩
    · refine ⟨"", .inl rfl, ?_⟩
      rw [String.append_empty, String.append_empty]
      exact (bare_eq_iff msg text).mp hbare
    · refine ⟨"," ++ more, .inr ⟨more, rfl⟩, ?_⟩
      rw [String.append_assoc, String.append_assoc]
      rw [String.append_assoc, String.append_assoc] at hbare
      exact (bare_eq_iff msg _).mp hbare

theorem UsernameText.unique {msg text text' : String} (h : UsernameText msg text)
    (h' : UsernameText msg text') : text = text' := by
  rw [usernameText_iff] at h h'
  rw [h, Option.some.injEq] at h'
  exact String.append_right_inj _ |>.mp h'

theorem parseClientFirstUsername_eq_some (msg u : String) :
    parseClientFirstUsername msg = some u ↔
      ∃ text, UsernameText msg text ∧ unescapeUsername text = u := by
  unfold parseClientFirstUsername
  simp only [Option.bind_eq_bind, Option.bind_eq_some_iff, Option.pure_def, Option.some.injEq,
    Str.stripPrefix_eq_some, usernameText_iff]
  constructor
  · rintro ⟨_, hhead, text, rfl, rfl⟩
    exact ⟨text, hhead, rfl⟩
  · rintro ⟨text, hhead, rfl⟩
    exact ⟨_, hhead, text, rfl, rfl⟩

theorem wellEscaped_iff {text : String} (hcomma : ',' ∉ text.toList) :
    WellEscaped text.toList ↔ text = escapeUsername (unescapeUsername text) := by
  constructor
  · intro h
    obtain ⟨us, hus⟩ := h.exists_flatMap hcomma
    have htext : text = escapeUsername (.ofList us) := by
      apply String.toList_inj.mp
      rw [toList_escapeUsername, String.toList_ofList, hus]
    rw [htext, unescapeUsername_escapeUsername]
  · intro h
    obtain ⟨u, rfl⟩ : ∃ u, text = escapeUsername u := ⟨_, h⟩
    exact wellEscaped_escapeUsername u

/-! ## What both sides read -/

theorem usernameText_bare (c : ScramClient) :
    UsernameText ("n,," ++ c.bare) (escapeUsername c.username) := by
  refine ⟨comma_not_mem_escapeUsername _, "," ++ attr nonceKey c.clientNonce, .inr ⟨_, rfl⟩, .inl ?_⟩
  have hattr : attr usernameKey (escapeUsername c.username) = "n=" ++ escapeUsername c.username :=
    attr_eq_append _ rfl _
  have hheader : "n,,n=" = "n,," ++ "n=" := by decide
  unfold ScramClient.bare
  rw [hattr, hheader]
  simp only [String.append_assoc]

theorem handleClientFirst_no_nonce (crypto : Crypto) (c : ScramClient) (hnonce : c.clientNonce = "")
    (username : String) (credentials : StoredCredentials) (server : ScramServer)
    (hstate : server.state = .expectClientFirst) :
    ScramServer.handleClientFirst crypto ("n,," ++ c.bare) username credentials server =
      (.err (.invalidMessage "missing client nonce"), server) := by
  have hstrip : ScramServer.stripGs2Header ("n,," ++ c.bare) = .ok c.bare :=
    (ScramServer.stripGs2Header_eq_ok _ _).mpr rfl
  have hparse := c.parseAttributes_bare (by rw [hnonce]; simp)
  unfold ScramServer.handleClientFirst
  rw [Method.get_bind, Method.require_bind, if_pos hstate, hstrip, Method.check_ok_bind, hparse,
    Method.check_ok_bind, Method.require_bind, if_pos (by simp [usernameKey, nonceKey]), hnonce]
  rfl

/-- The bridge reads back the username that the client escaped, and the server takes the same
attribute as the claimed username: the only check left to it is that the nonce is not empty. -/
theorem client_username_read_back (crypto : Crypto) (c : ScramClient) (hinit : c.state = .init)
    (hcomma : ',' ∉ c.clientNonce.toList) :
    ∃ msg c', ScramClient.clientFirstMessage c = (.ok msg, c') ∧
      parseClientFirstUsername msg = some c.username ∧
      UsernameText msg (escapeUsername c.username) ∧
      ∃ bare, ScramServer.stripGs2Header msg = .ok bare ∧
        parseAttributes bare =
          .ok [(usernameKey, escapeUsername c.username), (nonceKey, c.clientNonce)] ∧
        ∀ credentials (server : ScramServer), server.state = .expectClientFirst →
          (c.clientNonce = "" →
            ScramServer.handleClientFirst crypto msg c.username credentials server =
              (.err (.invalidMessage "missing client nonce"), server)) ∧
          (c.clientNonce ≠ "" → ∃ reply server',
            ScramServer.handleClientFirst crypto msg c.username credentials server =
              (.ok reply, server') ∧
            server'.clientFirstBare = bare ∧ server'.username = c.username) := by
  have hsent := (ScramClient.clientFirstMessage_eq_ok c _ _).mpr ⟨hinit, rfl, rfl⟩
  have hread := (parseClientFirstUsername_eq_some _ _).mpr
    ⟨_, usernameText_bare c, unescapeUsername_escapeUsername c.username⟩
  refine ⟨_, _, hsent, hread, usernameText_bare c, c.bare,
    (ScramServer.stripGs2Header_eq_ok _ _).mpr rfl, c.parseAttributes_bare hcomma, ?_⟩
  intro credentials server hstate
  refine ⟨fun hnonce => handleClientFirst_no_nonce crypto c hnonce _ _ _ hstate, fun hnonce => ?_⟩
  have haccepted := (@ScramServer.handleClientFirst_eq_ok crypto ("n,," ++ c.bare) c.username
    credentials server _ _).mpr
    ⟨hstate, c.bare, c.clientNonce, c.clientFirst_bare hnonce hcomma, rfl, rfl⟩
  exact ⟨_, _, haccepted, rfl, rfl⟩

theorem client_username_read_back_escapes :
    ∃ msg c', ScramClient.clientFirstMessage
        (.withNonce .sha256 "co=mma,=2C" "pencil" Rfc7677.clientNonce) = (.ok msg, c') ∧
      parseClientFirstUsername msg = some "co=mma,=2C" := by
  obtain ⟨msg, c', hsent, hread, -⟩ := client_username_read_back Rfc7677.crypto
    (.withNonce .sha256 "co=mma,=2C" "pencil" Rfc7677.clientNonce) rfl (by decide)
  exact ⟨msg, c', hsent, hread⟩

/-- The attribute of a client-first message is the escaped username exactly when each `=` in it
starts an escape, and such messages name one account by one text only. -/
theorem parseClientFirstUsername_escaped_iff (msg : String) :
    ((∀ u, parseClientFirstUsername msg = some u → UsernameText msg (escapeUsername u)) ↔
      ∀ text, UsernameText msg text → WellEscaped text.toList) ∧
    ∀ msg' text text' u, UsernameText msg text → UsernameText msg' text' →
      WellEscaped text.toList → WellEscaped text'.toList →
      parseClientFirstUsername msg = some u → parseClientFirstUsername msg' = some u →
      text = text' := by
  refine ⟨⟨fun h text htext => ?_, fun h u hu => ?_⟩, ?_⟩
  · have hescaped := h _ ((parseClientFirstUsername_eq_some _ _).mpr ⟨text, htext, rfl⟩)
    exact (wellEscaped_iff htext.1).mpr (htext.unique hescaped)
  · obtain ⟨text, htext, rfl⟩ := (parseClientFirstUsername_eq_some _ _).mp hu
    rw [← (wellEscaped_iff htext.1).mp (h text htext)]
    exact htext
  · intro msg' text text' u htext htext' hwell hwell' hu hu'
    obtain ⟨_, h, rfl⟩ := (parseClientFirstUsername_eq_some _ _).mp hu
    obtain ⟨_, h', heq⟩ := (parseClientFirstUsername_eq_some _ _).mp hu'
    cases htext.unique h
    cases htext'.unique h'
    rw [(wellEscaped_iff htext.1).mp hwell, (wellEscaped_iff htext'.1).mp hwell', heq]

/-- A lone `=` is taken as it stands, so that two texts name one account. -/
theorem parseClientFirstUsername_lone_equals :
    parseClientFirstUsername "n,,n=a=b,r=x" = some "a=b" ∧
      parseClientFirstUsername "n,,n=a=3Db,r=x" = some "a=b" ∧
      UsernameText "n,,n=a=b,r=x" "a=b" ∧ UsernameText "n,,n=a=3Db,r=x" "a=3Db" ∧
      escapeUsername "a=b" = "a=3Db" := by
  refine ⟨by decide, by decide, ?_, ?_, by decide⟩
  · exact ⟨by decide, ",r=x", .inr ⟨"r=x", rfl⟩, .inl rfl⟩
  · exact ⟨by decide, ",r=x", .inr ⟨"r=x", rfl⟩, .inl rfl⟩

end ScramBridge

end MongoWire
