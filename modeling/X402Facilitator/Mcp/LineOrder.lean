import X402Facilitator.Mcp.Lines

/-!
# Lines in their order

The lines are handled in the order in which they come, all of them whatever the handlers come
to, and what is written for a line is what its text and its calls make of it.
-/

namespace X402Facilitator.Mcp

open Execution

/-- The steps of the server, and of the handlers as they come to what `called` says. -/
def Works (called : Text → ℕ → Called) (s : Stdio) : Action → Prop
  | .take | .reply => True
  | .settle index outcome => ∀ text, s.unhandled.head? = some text → outcome = called text index
  | .line _ | .close => False

variable {parse : Text → Option Json} {server : McpServer} {request : Json} {members : List Member}
  {s s' : Stdio} {action : Action} {text : Text} {line : Handled} {called : Called} {index : ℕ}

/-- The array of a batch, as it is written. -/
def McpServer.writtenFor (server : McpServer) (members : List (Json × Called)) : List Message :=
  (batchMessages (members.flatMap fun member =>
    (server.comingTo member.2).batchMember member.1)).filterMap (Message.print server.stack)

def writes (server : McpServer) (parse : Text → Option Json) (text : Text)
    (called : List Called) : List Message :=
  match server.lineOf parse text with
  | .refused answer => [Message.frame answer].filterMap (Message.print server.stack)
  | .request request => (called.map (server.alone request)).flatten
  | .batch requests => server.writtenFor (requests.zip called)

def calls (server : McpServer) (parse : Text → Option Json) (text : Text) : ℕ :=
  match server.lineOf parse text with
  | .refused _ => 0
  | .request _ => 1
  | .batch requests => requests.length

structure Follows (server : McpServer) (parse : Text → Option Json) (line : Handled) : Prop where
  called : line.called.length = calls server parse line.text
  written : line.written = if line.isOpen then writes server parse line.text line.called else []

def InHand (server : McpServer) (parse : Text → Option Json) : Work → Prop
  | .request text request => server.lineOf parse text = .request request
  | .batch text members => server.lineOf parse text = .batch (members.map Member.request)

structure Orderly (server : McpServer) (parse : Text → Option Json) (s : Stdio) : Prop where
  order : s.handled.map Handled.text ++ s.unhandled = s.lines
  stdout : s.stdout = s.handled.flatMap Handled.written
  inHand : ∀ work, s.inHand = some work → InHand server parse work
  follows : ∀ line ∈ s.handled, Follows server parse line

theorem orderly_init : Orderly server parse .init where
  order := rfl
  stdout := rfl
  inHand := fun _ hwork => by cases hwork
  follows := fun _ hline => by cases hline

/-- A line is concluded with what it has written. -/
theorem orderly_conclude {called : List Called} {messages : List Message}
    (horder : s.handled.map Handled.text ++ text :: s.waiting = s.lines)
    (hstdout : s.stdout = s.handled.flatMap Handled.written)
    (hfollows : ∀ line ∈ s.handled, Follows server parse line)
    (hcalled : called.length = calls server parse text)
    (hwritten : messages = writes server parse text called) :
    Orderly server parse (s.conclude text called messages) where
  order := by
    change (s.handled ++ [_]).map Handled.text ++ s.waiting = s.lines
    rw [List.map_append, List.append_assoc]
    exact horder
  stdout := by
    change s.stdout ++ _ = (s.handled ++ [_]).flatMap Handled.written
    rw [List.flatMap_append, ← hstdout, List.flatMap_singleton]
  inHand := fun _ hwork => by cases hwork
  follows := by
    intro line hline
    rcases List.mem_append.mp hline with hold | hnew
    · exact hfollows line hold
    · cases List.mem_singleton.mp hnew
      exact ⟨hcalled, by rw [hwritten]⟩

theorem Orderly.take (hs : Orderly server parse s) {waiting : List Text}
    (hnone : s.inHand = none) (hwaiting : s.waiting = text :: waiting)
    (hstep : s.step server parse .take = some s') : Orderly server parse s' := by
  have horder : s.handled.map Handled.text ++ text :: waiting = s.lines := by
    have horder := hs.order
    rw [Stdio.unhandled, hnone, hwaiting] at horder
    exact horder
  simp only [Stdio.step, hnone, hwaiting] at hstep
  cases hline : server.lineOf parse text with
  | refused answer =>
      rw [hline] at hstep
      cases hstep
      refine orderly_conclude horder hs.stdout hs.follows ?_ ?_
      · rw [calls, hline]
        rfl
      · rw [writes, hline]
  | request request =>
      rw [hline] at hstep
      cases hstep
      exact ⟨horder, hs.stdout, fun work hwork => by cases hwork; exact hline, hs.follows⟩
  | batch requests =>
      rw [hline] at hstep
      cases hstep
      refine ⟨horder, hs.stdout, fun work hwork => ?_, hs.follows⟩
      cases hwork
      rw [InHand, List.map_map]
      exact hline.trans (congrArg Line.batch (List.map_id requests).symm)

/-- The line in hand comes next. -/
theorem Orderly.order_of_inHand (hs : Orderly server parse s) {work : Work}
    (hwork : s.inHand = some work) :
    s.handled.map Handled.text ++ work.text :: s.waiting = s.lines := by
  have horder := hs.order
  rw [Stdio.unhandled, hwork] at horder
  exact horder

theorem Orderly.settle (hs : Orderly server parse s)
    (hstep : s.step server parse (.settle index called) = some s') :
    Orderly server parse s' := by
  simp only [Stdio.step] at hstep
  split at hstep
  · next text request hwork =>
      obtain ⟨-, hsame⟩ := Option.ite_none_right_eq_some.mp hstep
      cases hsame
      have hline : server.lineOf parse text = .request request := hs.inHand _ hwork
      refine orderly_conclude (hs.order_of_inHand hwork) hs.stdout hs.follows ?_ ?_
      · rw [calls, hline]
        rfl
      · rw [writes, hline]
        exact (List.append_nil _).symm
  · next text members hwork =>
      split at hstep
      · next request hfind =>
          have horder := hs.order_of_inHand hwork
          cases hstep
          refine ⟨horder, hs.stdout, fun work hset => ?_, hs.follows⟩
          cases hset
          have hline : server.lineOf parse text = .batch (members.map Member.request) :=
            hs.inHand _ hwork
          obtain ⟨hindex, hmember⟩ := List.getElem?_eq_some_iff.mp hfind
          have hlt : index < (members.map Member.request).length := by rwa [List.length_map]
          have hsame : (members.map Member.request)[index] = request := by
            rw [List.getElem_map, hmember]
          rw [InHand, List.map_set, ← hsame, List.set_getElem_self]
          exact hline
      · cases hstep
  · cases hstep

/-- Once all members have settled, each has been called for, and the sinks hold what the calls
have made of them. -/
theorem called_of_settled (server : McpServer)
    (hsettled : (members.any fun member => member.called.isNone) = false) :
    (members.filterMap Member.called).length = members.length ∧
      ((members.map Member.request).zip (members.filterMap Member.called)).flatMap
        (fun member => (server.comingTo member.2).batchMember member.1) =
          members.flatMap server.sink := by
  induction members with
  | nil => exact ⟨rfl, rfl⟩
  | cons member members ih =>
      obtain ⟨request, called⟩ := member
      rw [List.any_cons, Bool.or_eq_false_iff] at hsettled
      obtain ⟨hlength, hsinks⟩ := ih hsettled.2
      cases called with
      | none => cases hsettled.1
      | some called =>
          refine ⟨congrArg (· + 1) hlength, ?_⟩
          rw [List.flatMap_cons, ← hsinks]
          rfl

theorem Orderly.reply (hs : Orderly server parse s)
    (hstep : s.step server parse .reply = some s') : Orderly server parse s' := by
  simp only [Stdio.step] at hstep
  split at hstep
  · next text members hwork =>
      obtain ⟨hsettled, hsame⟩ := Option.ite_none_left_eq_some.mp hstep
      rw [Bool.not_eq_true] at hsettled
      cases hsame
      have hline : server.lineOf parse text = .batch (members.map Member.request) :=
        hs.inHand _ hwork
      obtain ⟨hlength, hsinks⟩ := called_of_settled server hsettled
      refine orderly_conclude (hs.order_of_inHand hwork) hs.stdout hs.follows ?_ ?_
      · rw [calls, hline, hlength]
        exact (List.length_map Member.request).symm
      · rw [writes, hline]
        simp only [McpServer.writtenFor, hsinks]
  · cases hstep

theorem orderly_step (hs : Orderly server parse s)
    (hstep : s.step server parse action = some s') : Orderly server parse s' := by
  cases action with
  | line text =>
      simp only [Stdio.step] at hstep
      split_ifs at hstep
      · cases hstep
        exact hs
      · cases hstep
        refine ⟨?_, hs.stdout, hs.inHand, hs.follows⟩
        change s.handled.map Handled.text ++ (_ ++ (s.waiting ++ [text])) = s.lines ++ [text]
        rw [← hs.order, Stdio.unhandled, List.append_assoc, List.append_assoc]
  | take =>
      cases hwork : s.inHand with
      | some work =>
          simp only [Stdio.step, hwork] at hstep
          cases hstep
      | none =>
          cases hwaiting : s.waiting with
          | nil =>
              simp only [Stdio.step, hwork, hwaiting] at hstep
              cases hstep
          | cons text waiting => exact hs.take hwork hwaiting hstep
  | settle index called => exact hs.settle hstep
  | reply => exact hs.reply hstep
  | close =>
      cases hstep
      exact ⟨hs.order, hs.stdout, hs.inHand, hs.follows⟩

def Work.remaining : Work → ℕ
  | .request _ _ => 1
  | .batch _ members => members.countP (·.called.isNone) + 1

def Stdio.remaining (server : McpServer) (parse : Text → Option Json) (s : Stdio) : ℕ :=
  s.inHand.elim 0 Work.remaining +
    (s.waiting.map fun text => calls server parse text + 2).sum

theorem countP_pending (requests : List Json) :
    (requests.map fun request => Member.mk request none).countP (·.called.isNone) =
      requests.length := by
  rw [List.countP_map]
  exact List.countP_eq_length.mpr fun _ _ => rfl

/-- The server takes the next line. -/
theorem exists_take {waiting : List Text} (hnone : s.inHand = none)
    (hwaiting : s.waiting = text :: waiting) :
    ∃ s', s.step server parse .take = some s' ∧
      s'.remaining server parse < s.remaining server parse := by
  simp only [Stdio.step, hnone, hwaiting]
  cases hline : server.lineOf parse text with
  | refused answer =>
      refine ⟨_, rfl, ?_⟩
      simp only [Stdio.remaining, Stdio.conclude, hnone, hwaiting, Option.elim, List.map_cons,
        List.sum_cons]
      omega
  | request request =>
      refine ⟨_, rfl, ?_⟩
      simp only [Stdio.remaining, hnone, hwaiting, Option.elim, List.map_cons, List.sum_cons,
        Work.remaining]
      omega
  | batch requests =>
      refine ⟨_, rfl, ?_⟩
      have hcalls : calls server parse text = requests.length := by rw [calls, hline]
      simp only [Stdio.remaining, hnone, hwaiting, Option.elim, List.map_cons, List.sum_cons,
        Work.remaining, countP_pending, hcalls]
      omega

/-- A member that has not settled does so. -/
theorem exists_settle (hwork : s.inHand = some (.batch text members))
    (hpending : (members.any fun member => member.called.isNone) = true) :
    ∃ index, ∀ called, ∃ s', s.step server parse (.settle index called) = some s' ∧
      s'.remaining server parse < s.remaining server parse := by
  obtain ⟨⟨request, called⟩, hmember, hnone⟩ := List.any_eq_true.mp hpending
  obtain rfl := Option.isNone_iff_eq_none.mp hnone
  obtain ⟨index, hindex⟩ := List.mem_iff_getElem?.mp hmember
  obtain ⟨hlt, hsame⟩ := List.getElem?_eq_some_iff.mp hindex
  refine ⟨index, fun called => ?_⟩
  simp only [Stdio.step, hwork, hindex]
  refine ⟨_, rfl, ?_⟩
  have hcount : 0 < members.countP (·.called.isNone) := List.countP_pos_iff.mpr ⟨_, hmember, rfl⟩
  have hset : (members.set index ⟨request, some called⟩).countP (·.called.isNone) =
      members.countP (·.called.isNone) - 1 := by
    rw [List.countP_set hlt, hsame]
    rfl
  simp only [Stdio.remaining, hwork, Option.elim, Work.remaining, hset]
  omega

theorem exists_works (called : Text → ℕ → Called) (hunhandled : s.unhandled ≠ []) :
    ∃ action s', Works called s action ∧ s.step server parse action = some s' ∧
      s'.remaining server parse < s.remaining server parse := by
  cases hwork : s.inHand with
  | none =>
      cases hwaiting : s.waiting with
      | nil =>
          rw [Stdio.unhandled, hwork, hwaiting] at hunhandled
          exact absurd rfl hunhandled
      | cons text waiting =>
          obtain ⟨s', hstep, hless⟩ := exists_take hwork hwaiting
          exact ⟨.take, s', trivial, hstep, hless⟩
  | some work =>
      have hhead : s.unhandled.head? = some work.text := by rw [Stdio.unhandled, hwork]; rfl
      have hworks : ∀ index, Works called s (.settle index (called work.text index)) := by
        intro index text htext
        rw [Option.some.inj (hhead.symm.trans htext)]
      cases work with
      | request text request =>
          have hstep : s.step server parse (.settle 0 (called text 0)) =
              some (s.conclude text [called text 0] (server.alone request (called text 0))) := by
            simp only [Stdio.step, hwork, if_true]
          refine ⟨_, _, hworks 0, hstep, ?_⟩
          simp only [Stdio.remaining, Stdio.conclude, hwork, Option.elim, Work.remaining]
          omega
      | batch text members =>
          cases hpending : members.any fun member => member.called.isNone with
          | true =>
              obtain ⟨index, hindex⟩ := exists_settle hwork hpending
              obtain ⟨s', hstep, hless⟩ := hindex (called text index)
              exact ⟨_, s', hworks index, hstep, hless⟩
          | false =>
              have hstep : ∃ s', s.step server parse .reply = some s' ∧ s'.inHand = none ∧
                  s'.waiting = s.waiting := by
                simp only [Stdio.step, hwork, hpending, Bool.false_eq_true, if_false]
                exact ⟨_, rfl, rfl, rfl⟩
              obtain ⟨s', hstep, hinHand, hwaiting⟩ := hstep
              refine ⟨.reply, s', trivial, hstep, ?_⟩
              simp only [Stdio.remaining, hinHand, hwaiting, hwork, Option.elim, Work.remaining]
              omega

/-- However the handlers end, all lines are handled. -/
theorem exists_handled (called : Text → ℕ → Called) (s : Stdio) :
    ∃ s', Reaches (Stdio.step server parse) (Works called) s s' ∧ s'.unhandled = [] := by
  induction hremaining : s.remaining server parse using Nat.strong_induction_on generalizing s with
  | _ remaining ih =>
      by_cases hunhandled : s.unhandled = []
      · exact ⟨s, .refl s, hunhandled⟩
      · obtain ⟨action, s', hworks, hstep, hless⟩ := exists_works called hunhandled
        obtain ⟨s'', hreach, hdone⟩ := ih _ (hremaining ▸ hless) s' rfl
        exact ⟨s'', ((Reaches.refl s).tail hworks hstep).trans hreach, hdone⟩

end X402Facilitator.Mcp
