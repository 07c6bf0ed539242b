import MongoWire.Api.Turns
import MongoWire.Network.Consistent

/-!
# Coming to rest

What the network and the programs at both ends do by themselves comes to an end, and it ends only
where nothing is left to do.
-/

open MongoWire.Lib MongoWire.Lib.Outcome MongoWire.Framing

namespace MongoWire.Network

variable {crc : Checksum} {build : Build} {config : ServerConfig}

/-- What the network and the two programs do by themselves. -/
def Action.Internal : Action → Prop
  | .write _ | .shutdown => False
  | .arrive _ | .serve _ _ | .back _ | .recv => True

/-- An internal action gets the connection from `l` to another state. -/
def Moves (crc : Checksum) (build : Build) (config : ServerConfig) (l' l : Link) : Prop :=
  ∃ a : Action, a.Internal ∧ l' = l.act crc build config a ∧ l' ≠ l

/-- What an internal action makes smaller: an end stops, or bytes get nearer to where they go.
Behind the first component that changes, bytes may be added. -/
def Link.left (l : Link) : Nat ×ₗ Nat ×ₗ Nat ×ₗ Nat ×ₗ Nat ×ₗ Nat :=
  toLex (if l.result.isNone then 1 else 0, toLex (l.uplink.length, toLex (l.inbox.length,
    toLex (if l.failed.isNone then 1 else 0, toLex (l.downlink.length, l.buf.length)))))

theorem drop_eq_self_of_length {α : Type} {xs : List α} {n : Nat}
    (h : ¬ (xs.drop n).length < xs.length) : xs.drop n = xs ∧ xs.take n = [] := by
  rw [List.length_drop] at h
  rcases Nat.eq_zero_or_pos n with rfl | hn
  · exact ⟨rfl, rfl⟩
  · have hnil : xs = [] := List.length_eq_zero_iff.mp (by omega)
    rw [hnil]
    exact ⟨List.drop_nil, List.take_nil⟩

section Left

variable {l l' : Link}

theorem left_lt_of_returned (hrun : l.result = none) (hreturned : l'.result ≠ none) :
    l'.left < l.left := by
  obtain ⟨r, hr⟩ := Option.ne_none_iff_exists'.mp hreturned
  unfold Link.left
  rw [hrun, hr]
  exact Prod.Lex.left _ _ Nat.zero_lt_one

theorem left_lt_of_uplink (hresult : l'.result = l.result)
    (hlt : l'.uplink.length < l.uplink.length) : l'.left < l.left := by
  unfold Link.left
  rw [hresult]
  exact Prod.Lex.right _ (Prod.Lex.left _ _ hlt)

theorem left_lt_of_inbox (hresult : l'.result = l.result) (huplink : l'.uplink = l.uplink)
    (hlt : l'.inbox.length < l.inbox.length) : l'.left < l.left := by
  unfold Link.left
  rw [hresult, huplink]
  exact Prod.Lex.right _ (Prod.Lex.right _ (Prod.Lex.left _ _ hlt))

section Client

variable (hserver : l'.result = l.result ∧ l'.uplink = l.uplink ∧ l'.inbox = l.inbox)

include hserver

theorem left_lt_of_client (hlt : toLex (if l'.failed.isNone then 1 else 0,
      toLex (l'.downlink.length, l'.buf.length)) <
    toLex (if l.failed.isNone then 1 else 0, toLex (l.downlink.length, l.buf.length))) :
    l'.left < l.left := by
  obtain ⟨hresult, huplink, hinbox⟩ := hserver
  unfold Link.left
  rw [hresult, huplink, hinbox]
  exact Prod.Lex.right _ (Prod.Lex.right _ (Prod.Lex.right _ hlt))

theorem left_lt_of_failed (hrun : l.failed = none) (hfailed : l'.failed ≠ none) :
    l'.left < l.left := by
  obtain ⟨e, he⟩ := Option.ne_none_iff_exists'.mp hfailed
  refine left_lt_of_client hserver ?_
  rw [hrun, he]
  exact Prod.Lex.left _ _ Nat.zero_lt_one

theorem left_lt_of_read (hsame : l'.failed = l.failed)
    (hlt : l'.downlink.length < l.downlink.length ∨
      l'.downlink = l.downlink ∧ l'.buf.length < l.buf.length) : l'.left < l.left := by
  refine left_lt_of_client hserver ?_
  rw [hsame]
  refine Prod.Lex.right _ ?_
  rcases hlt with hlt | ⟨hdown, hlt⟩
  · exact Prod.Lex.left _ _ hlt
  · rw [hdown]
    exact Prod.Lex.right _ hlt

end Client

end Left

theorem left_arrive {l : Link} {n : Nat} (h : l.arrive n ≠ l) : (l.arrive n).left < l.left := by
  by_cases hresult : l.result.isSome = true
  · exact absurd (if_pos hresult) h
  · have harrive : l.arrive n =
        { l with uplink := l.uplink.drop n, inbox := l.inbox ++ l.uplink.take n } := if_neg hresult
    rw [harrive] at h ⊢
    by_cases hlt : (l.uplink.drop n).length < l.uplink.length
    · exact left_lt_of_uplink rfl hlt
    · obtain ⟨hdrop, htake⟩ := drop_eq_self_of_length hlt
      rw [hdrop, htake, List.append_nil] at h
      exact absurd rfl h

theorem left_back {l : Link} {n : Nat} (h : l.back n ≠ l) : (l.back n).left < l.left := by
  by_cases hfailed : l.failed.isSome = true
  · exact absurd (if_pos hfailed) h
  · have hback : l.back n =
        { l with downlink := l.downlink.drop n, buf := l.buf ++ l.downlink.take n } := if_neg hfailed
    rw [hback] at h ⊢
    by_cases hlt : (l.downlink.drop n).length < l.downlink.length
    · exact left_lt_of_read ⟨rfl, rfl, rfl⟩ rfl (.inl hlt)
    · obtain ⟨hdrop, htake⟩ := drop_eq_self_of_length hlt
      rw [hdrop, htake, List.append_nil] at h
      exact absurd rfl h

theorem left_recv {l : Link} (h : l.recv crc ≠ l) : (l.recv crc).left < l.left := by
  rcases @Link.recv_cases crc l with ⟨hsame, -⟩ | ⟨hrun, ⟨msg, rest, hparse, hrecv⟩ |
      ⟨e, rest, -, hrecv⟩⟩
  · exact absurd hsame h
  · have hlt := (incremental_parseMessage crc .maxValue).progress l.buf msg
      (congrArg Prod.fst hparse)
    rw [hparse] at hlt
    rw [hrecv]
    exact left_lt_of_read ⟨rfl, rfl, rfl⟩ rfl (.inr ⟨rfl, hlt⟩)
  · rw [hrecv]
    exact left_lt_of_failed ⟨rfl, rfl, rfl⟩ hrun nofun

theorem Link.returned_of_error (l : Link) (now : Int64) (handler : Handler) (e : ProtocolError)
    (rest : Bytes) :
    (l.turn crc build config ⟨⟨.error e, now⟩, handler⟩ rest).result ≠ none := nofun

theorem left_serve {l : Link} {now : Int64} {handler : Handler}
    (h : l.serve crc build config now handler ≠ l) :
    (l.serve crc build config now handler).left < l.left := by
  rcases l.serve_cases now handler with ⟨hsame, -⟩ | ⟨hrun, ⟨msg, rest, hdecode, hturn⟩ |
      ⟨e, rest, -, hturn⟩ | ⟨-, hend⟩⟩
  · exact absurd hsame h
  · rw [hturn]
    have hlt := (incremental_decode crc _).progress l.inbox msg (congrArg Prod.fst hdecode)
    rw [hdecode] at hlt
    by_cases hreturned : (l.turn crc build config ⟨⟨.ok msg, now⟩, handler⟩ rest).result = none
    · exact left_lt_of_inbox (hreturned.trans hrun.symm) rfl hlt
    · exact left_lt_of_returned hrun hreturned
  · rw [hturn]
    exact left_lt_of_returned hrun (l.returned_of_error now handler e rest)
  · rw [hend]
    exact left_lt_of_returned hrun nofun

theorem left_moves {l l' : Link} (h : Moves crc build config l' l) : l'.left < l.left := by
  obtain ⟨a, ha, rfl, hne⟩ := h
  cases a with
  | write bytes => exact absurd ha id
  | shutdown => exact absurd ha id
  | arrive n => exact left_arrive hne
  | serve now handler => exact left_serve hne
  | back n => exact left_back hne
  | recv => exact left_recv hne

theorem atRest_of_stuck {l : Link} (h : ∀ l', ¬ Moves crc build config l' l) :
    AtRest crc config l := by
  have hsame (a : Action) (ha : a.Internal) : l.act crc build config a = l := by
    by_contra hne
    exact h _ ⟨a, ha, rfl, hne⟩
  refine ⟨fun hrun => ?_, fun hrun => ?_⟩
  · have huplink : l.uplink = [] := by
      have harrive := congrArg Link.uplink (hsame (.arrive l.uplink.length) trivial)
      rw [Link.act, Link.arrive, hrun] at harrive
      exact harrive.symm.trans List.drop_length
    have hserve := hsame (.serve 0 (Server.Sample.always (.ok .noReply) trivial)) trivial
    rcases l.serve_cases 0 (Server.Sample.always (.ok .noReply) trivial) with ⟨-, hwaits⟩ |
        ⟨-, ⟨msg, rest, -, hturn⟩ | ⟨e, rest, -, hturn⟩ | ⟨-, hend⟩⟩
    · obtain ⟨hwait, hopen⟩ := hwaits hrun
      exact ⟨huplink, hopen.resolve_right (absurd huplink), hwait⟩
    -- A turn is recorded, and the end of the stream makes the server return.
    · have hlen := congrArg (List.length ∘ Link.served) (hturn.symm.trans hserve)
      simp [Link.turn] at hlen
    · have hlen := congrArg (List.length ∘ Link.served) (hturn.symm.trans hserve)
      simp [Link.turn] at hlen
    · have hresult := congrArg Link.result (hend.symm.trans hserve)
      rw [hrun] at hresult
      cases hresult
  · have hdownlink : l.downlink = [] := by
      have hback := congrArg Link.downlink (hsame (.back l.downlink.length) trivial)
      rw [Link.act, Link.back, hrun] at hback
      exact hback.symm.trans List.drop_length
    have hrecv : l.recv crc = l := hsame .recv trivial
    rcases @Link.recv_cases crc l with ⟨-, hwaits⟩ | ⟨-, ⟨msg, rest, -, htake⟩ | ⟨e, rest, -, hfail⟩⟩
    · exact ⟨hdownlink, hwaits hrun⟩
    -- A message is recorded, and so is an error.
    · have hlen := congrArg (List.length ∘ Link.received) (htake.symm.trans hrecv)
      simp at hlen
    · have hfailed := congrArg Link.failed (hfail.symm.trans hrecv)
      rw [hrun] at hfailed
      cases hfailed

theorem not_moves_of_atRest {l l' : Link} (h : AtRest crc config l) :
    ¬ Moves crc build config l' l := by
  rintro ⟨a, ha, rfl, hne⟩
  apply hne
  cases a with
  | write bytes => exact absurd ha id
  | shutdown => exact absurd ha id
  | arrive n =>
    rw [Link.act, Link.arrive]
    split
    · rfl
    · obtain ⟨huplink, -⟩ := h.server (Option.not_isSome_iff_eq_none.mp ‹_›)
      rw [huplink, List.drop_nil, List.take_nil, List.append_nil, ← huplink]
  | serve now handler =>
    refine Link.serve_of_waits fun hrun => ?_
    obtain ⟨-, hopen, hwait⟩ := h.server hrun
    exact ⟨hwait, .inl hopen⟩
  | back n =>
    rw [Link.act, Link.back]
    split
    · rfl
    · obtain ⟨hdownlink, -⟩ := h.client (Option.not_isSome_iff_eq_none.mp ‹_›)
      rw [hdownlink, List.drop_nil, List.take_nil, List.append_nil, ← hdownlink]
  | recv =>
    rcases @Link.recv_cases crc l with ⟨hsame, -⟩ | ⟨hrun, hmoves⟩
    · exact hsame
    · obtain ⟨-, hwait⟩ := h.client hrun
      rcases hmoves with ⟨msg, rest, hparse, -⟩ | ⟨e, rest, hparse, -⟩
      all_goals
        rw [hparse] at hwait
        cases hwait

/-- **No livelock and no deadlock.** The network and the two programs cannot go on for ever by
themselves, in whatever order they act, and they stop exactly when neither end has anything left to
do. -/
theorem comes_to_rest (crc : Checksum) (build : Build) (config : ServerConfig) :
    WellFounded (Moves crc build config) ∧
    ∀ l, (∀ l', ¬ Moves crc build config l' l) ↔ AtRest crc config l := by
  constructor
  · have hwf := InvImage.wf Link.left wellFounded_lt
    exact Subrelation.wf left_moves hwf
  · exact fun l => ⟨atRest_of_stuck, fun h _ => not_moves_of_atRest h⟩

end MongoWire.Network
