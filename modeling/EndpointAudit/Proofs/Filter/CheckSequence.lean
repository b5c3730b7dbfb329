import EndpointAudit.Proofs.Data.Assoc
import EndpointAudit.Proofs.Filter.PathCheck

/-!
# Checks one after the other

A filter may compare the path with several texts. The text may be loaded before or after the path
is read, the branch that tests a comparison may be missing, and other calls may stand between one
check and the next. A check without a branch is settled by whatever follows it, which is then read
as if nothing had gone before.
-/

namespace EndpointAudit.Filter

/-- A comparison of the path with a text. -/
structure Check where
  read : Call
  compare : Call
  text : String
  /-- Whether the text is loaded before the path is read. -/
  textFirst : Bool
  /-- The branch that tests the comparison, if there is one. -/
  branch : Option Bool
  reads : readsPath read = true
  compares : comparesTexts compare = true

namespace Check

def events (check : Check) : List Event :=
  (if check.textFirst then [.constant check.text, .call check.read]
    else [.call check.read, .constant check.text]) ++
      .call check.compare :: (check.branch.map Event.branch).toList

/-- The pattern that a check stands for. -/
def outcome (check : Check) : String :=
  if check.branch = some true then Route.wildcard else check.text

end Check

/-- A call that neither reads the path nor compares texts. -/
def OtherCall : Type := { c : Call // readsPath c = false ∧ comparesTexts c = false }

/-- The events of calls that have nothing to do with checks. -/
def otherEvents (calls : List OtherCall) : List Event := calls.map fun c => .call c.1

/-- The events of checks, each with the calls that follow it. -/
def checkEvents (checks : List (Check × List OtherCall)) : List Event :=
  checks.flatMap fun (check, calls) => check.events ++ otherEvents calls

namespace PathMatcher

/-- An event that is no branch settles what is open before it is read itself. -/
theorem feed_settle (m : PathMatcher) {event : Event} (h : ∀ negated, event ≠ .branch negated) :
    m.settle.feed event = m.feed event := by
  obtain ⟨stage, patterns⟩ := m
  cases event with
  | branch negated => exact absurd rfl (h negated)
  | constant text => cases stage <;> rfl
  | call c => cases stage <;> rfl

private theorem emit_eq (m : PathMatcher) (text : String) (negated : Bool) :
    m.emit text negated =
      ⟨.idle none, addPattern (if negated then Route.wildcard else text) m.patterns⟩ := rfl

private theorem feed_otherCall (patterns : List String) (c : OtherCall) :
    (⟨.idle none, patterns⟩ : PathMatcher).feed (.call c.1) = ⟨.idle none, patterns⟩ := by
  obtain ⟨c, hread, hcompare⟩ := c
  simp [feed, Stage.next, hread, hcompare, Stage.onOtherCall]

theorem settle_foldl_otherEvents {m : PathMatcher} {patterns : List String}
    (hm : m.settle = ⟨.idle none, patterns⟩) (calls : List OtherCall) :
    ((otherEvents calls).foldl feed m).settle = ⟨.idle none, patterns⟩ := by
  induction calls generalizing m with
  | nil => exact hm
  | cons c calls ih =>
    have hfeed : m.feed (.call c.1) = ⟨.idle none, patterns⟩ := by
      rw [← m.feed_settle (by simp), hm]
      exact feed_otherCall patterns c
    apply ih
    rw [hfeed]
    rfl

/-- A check that begins with nothing open adds its outcome. It may still wait for its branch, so
this is said of the matcher once it is settled. -/
theorem settle_foldl_events {m : PathMatcher} {patterns : List String}
    (hm : m.settle = ⟨.idle none, patterns⟩) (check : Check) :
    (check.events.foldl feed m).settle = ⟨.idle none, addPattern check.outcome patterns⟩ := by
  obtain ⟨read, compare, text, textFirst, branch, hread, hcompare⟩ := check
  have hother := not_readsPath hcompare
  have hcall : m.feed (.call read) = ⟨.pathRead false, patterns⟩ := by
    rw [← m.feed_settle (by simp), hm]
    simp [feed, Stage.next, hread, Stage.onPathRead]
  have hconstant : m.feed (.constant text) = ⟨.idle (some text), patterns⟩ := by
    rw [← m.feed_settle (by simp), hm]
    rfl
  have hopened : (if textFirst then [.constant text, .call read]
      else [.call read, .constant text]).foldl feed m = ⟨.constant text false, patterns⟩ := by
    cases textFirst with
    | true =>
      simp only [if_true, List.foldl_cons, List.foldl_nil, hconstant]
      simp [feed, Stage.next, hread, Stage.onPathRead]
    | false =>
      simp only [Bool.false_eq_true, if_false, List.foldl_cons, List.foldl_nil, hcall]
      rfl
  have hcompared : (⟨.constant text false, patterns⟩ : PathMatcher).feed (.call compare) =
      ⟨.awaitBranch text false, patterns⟩ := by
    simp [feed, Stage.next, hother, hcompare, Stage.onComparison]
  rw [Check.events, List.foldl_append, hopened, List.foldl_cons, hcompared]
  cases branch with
  | none => rfl
  | some negated =>
    change (emit _ text (false || negated)).settle = _
    rw [emit_eq, Bool.false_or]
    simp [settle, Check.outcome]

private theorem settle_foldl_checkEvents {m : PathMatcher} {patterns : List String}
    (hm : m.settle = ⟨.idle none, patterns⟩) (checks : List (Check × List OtherCall)) :
    ((checkEvents checks).foldl feed m).settle =
      ⟨.idle none, (checks.map (·.1.outcome)).foldl (fun ps p => addPattern p ps) patterns⟩ := by
  induction checks generalizing m patterns with
  | nil => exact hm
  | cons first checks ih =>
    obtain ⟨check, calls⟩ := first
    have hcheck := settle_foldl_events hm check
    have hcalls := settle_foldl_otherEvents hcheck calls
    rw [checkEvents, List.flatMap_cons, List.foldl_append, List.foldl_append]
    exact ih hcalls

end PathMatcher

/-- **The patterns of a list of checks** are their outcomes, each once and in the order in which
they first occur, whatever other calls stand before, between and behind the checks. -/
theorem matchPaths_checkEvents (calls : List OtherCall) (checks : List (Check × List OtherCall)) :
    matchPaths (otherEvents calls ++ checkEvents checks) =
      (checks.map (·.1.outcome)).eraseDups := by
  have hstart : (((otherEvents calls).foldl PathMatcher.feed {}).settle : PathMatcher) =
      ⟨.idle none, []⟩ := PathMatcher.settle_foldl_otherEvents rfl calls
  have hrun := PathMatcher.settle_foldl_checkEvents hstart checks
  rw [matchPaths, List.foldl_append, ← PathMatcher.settle_patterns, hrun]
  exact Assoc.foldl_append_eq_eraseDups _

/-- Checks in both orders, with and without a branch, one of them made twice. -/
def mixedChecks : List (Check × List OtherCall) :=
  [(⟨uriCall, equalsCall, "/a", false, none, by decide, by decide⟩, []),
    (⟨uriCall, equalsCall, "/b", true, some true, by decide, by decide⟩,
      [⟨⟨"com.acme.Audit", "log", "()V"⟩, by decide⟩]),
    (⟨uriCall, equalsCall, "/a", true, some false, by decide, by decide⟩, [])]

example : matchPaths (checkEvents mixedChecks) = ["/a", "*"] := by decide

end EndpointAudit.Filter
