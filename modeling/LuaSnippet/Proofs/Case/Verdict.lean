import Mathlib.Data.List.Basic
import LuaSnippet.Case.Verdict
import LuaSnippet.Proofs.Text.Within

/-!
# What makes a case pass

A case passes for a Lua text that is the expected one, or for a failure that shows the expected error.
A defect of what stands around the snippet never is such a failure. The expected error is looked for in
the whole message about the diagnostics, though, and not in each of them: it may also be found in the
words before them, in the blanks that they are moved in by, or across the end of a line
(`check_pass_iff`). So a case can pass without any diagnostic saying what it expects
(`heading_meets_error`). A text that is not found in the first line of the message, does not start with
a blank and has no line end in it can only be found in a diagnostic (`meetsError_iff_of_plain`).
-/

namespace LuaSnippet

open Session (Failure)

/-! ### The message about diagnostics -/

namespace Session.Failure

def heading (d : Dialect) : String :=
  "compiling for " ++ d.displayName ++ " produced diagnostics:"

/-- The lines of the message about some diagnostics. -/
def diagnosedLines (d : Dialect) (ds : List Diagnostic) : List String :=
  heading d :: ds.map fun x => "  " ++ x.display

/-- Whether a text is found in the message about some diagnostics beside what is found in one of them:
in the line before them, at the start of a line that a diagnostic is moved in on, or across the end of a
line. -/
inductive InWording (d : Dialect) (ds : List Diagnostic) (text : String) : Prop where
  | heading (h : text.toList <:+: (heading d).toList)
  | indent {x v} (hx : x ∈ ds) (hv : v <+: x.display.toList)
    (h : text.toList = ' ' :: v ∨ text.toList = ' ' :: ' ' :: v)
  | across (h : Text.IsAcross ((diagnosedLines d ds).map String.toList) text.toList)

variable {d : Dialect} {ds : List Diagnostic} {text : String}

theorem message_diagnosed (hds : ds ≠ []) :
    (diagnosed d ds).message = Text.join "\n" (diagnosedLines d ds) := by
  cases ds with
  | nil => exact (hds rfl).elim
  | cons x ds =>
    have hend : " produced diagnostics:" ++ "\n" = " produced diagnostics:\n" := by simp
    have hline : heading d ++ "\n" =
        "compiling for " ++ d.displayName ++ " produced diagnostics:\n" := by
      rw [heading, String.append_assoc, hend]
    rw [diagnosedLines, List.map_cons, Text.join_cons_cons, hline]
    rfl

theorem infix_indented_iff {part cs : List Char} : part <:+: "  ".toList ++ cs ↔
    part <:+: cs ∨ ∃ v, v <+: cs ∧ (part = ' ' :: v ∨ part = ' ' :: ' ' :: v) := by
  have hblanks : "  ".toList ++ cs = ' ' :: ' ' :: cs := rfl
  rw [hblanks, List.infix_cons_iff, List.infix_cons_iff, List.prefix_cons_iff, List.prefix_cons_iff]
  constructor
  · rintro ((rfl | ⟨t, rfl, ht⟩) | (rfl | ⟨v, rfl, hv⟩) | h)
    · exact .inl List.nil_infix
    · rcases List.prefix_cons_iff.mp ht with rfl | ⟨v, rfl, hv⟩
      · exact .inr ⟨[], List.nil_prefix, .inl rfl⟩
      · exact .inr ⟨v, hv, .inr rfl⟩
    · exact .inl List.nil_infix
    · exact .inr ⟨v, hv, .inl rfl⟩
    · exact .inl h
  · rintro (h | ⟨v, hv, rfl | rfl⟩)
    · exact .inr (.inr h)
    · exact .inr (.inl (.inr ⟨v, rfl, hv⟩))
    · exact .inl (.inr ⟨' ' :: v, rfl, List.cons_prefix_cons.mpr ⟨rfl, hv⟩⟩)

/-- **The message about diagnostics contains what one of them contains, and what its wording does.** -/
theorem contains_message_iff (hds : ds ≠ []) :
    Text.contains (diagnosed d ds).message text = true ↔
      (∃ x ∈ ds, text.toList <:+: x.display.toList) ∨ InWording d ds text := by
  rw [Text.contains_iff, message_diagnosed hds, Text.toList_join]
  rw [show "\n".toList = ['\n'] from rfl, Text.infix_intercalate_iff (by simp [diagnosedLines])]
  constructor
  · rintro (⟨l, hl, htext⟩ | hacross)
    · rcases List.mem_cons.mp hl with rfl | hl
      · exact .inr (.heading htext)
      · obtain ⟨_, hline, rfl⟩ := List.mem_map.mp hl
        obtain ⟨x, hx, rfl⟩ := List.mem_map.mp hline
        rw [String.toList_append] at htext
        rcases infix_indented_iff.mp htext with h | ⟨v, hv, h⟩
        · exact .inl ⟨x, hx, h⟩
        · exact .inr (.indent hx hv h)
    · exact .inr (.across hacross)
  · have hmem {x : Diagnostic} (hx : x ∈ ds) :
        "  ".toList ++ x.display.toList ∈ (diagnosedLines d ds).map String.toList := by
      have hline : "  " ++ x.display ∈ diagnosedLines d ds :=
        .tail _ (List.mem_map.mpr ⟨x, hx, rfl⟩)
      rw [← String.toList_append]
      exact List.mem_map_of_mem hline
    rintro (⟨x, hx, h⟩ | ⟨h⟩ | ⟨hx, hv, h⟩ | ⟨h⟩)
    · exact .inl ⟨_, hmem hx, infix_indented_iff.mpr (.inl h)⟩
    · exact .inl ⟨_, .head _, h⟩
    · exact .inl ⟨_, hmem hx, infix_indented_iff.mpr (.inr ⟨_, hv, h⟩)⟩
    · exact .inr h

end Session.Failure

theorem Session.of_run_diagnosed {s : Session} {disk : Disk} {d d' : Dialect} {snippet : String}
    {ds : List Diagnostic} (h : (s.run disk d snippet).1 = .error (.diagnosed d' ds)) :
    d' = d ∧ ds ≠ [] := by
  have houtcome {p : Program} {e : Emission} (h : outcome d p e = .error (.diagnosed d' ds)) :
      d' = d ∧ ds ≠ [] := by
    unfold outcome snippetLua at h
    split at h
    · split at h <;> cases h
    · rename_i hne
      cases h
      exact ⟨rfl, hne⟩
  unfold run at h
  split at h
  · cases h
  · split at h
    · exact houtcome h
    · cases h

/-! ### The verdict -/

namespace Case

variable {c : Case} {d : Dialect} {ds : List Diagnostic} {text : String}

theorem judgeText_pass_iff {expected : Option String} {lua : String} :
    judgeText expected lua = .pass ↔ ∃ text, expected = some text ∧ Text.trim text = lua := by
  cases expected with
  | none => simp [judgeText]
  | some text => simp [judgeText]

theorem meetsError_iff {f : Failure} : meetsError text f = true ↔
    ∃ d ds, f = .diagnosed d ds ∧ Text.contains f.message text = true := by
  cases f with
  | diagnosed d ds => simp [meetsError, Failure.isDefect]
  | unmapped | artifactMissing | unreadable => simp [meetsError, Failure.isDefect]

theorem meetsError_iff_of_plain (hds : ds ≠ [])
    (hheading : ¬ text.toList <:+: (Failure.heading d).toList) (hblank : text.toList.head? ≠ some ' ')
    (hline : '\n' ∉ text.toList) :
    meetsError text (.diagnosed d ds) = true ↔ ∃ x ∈ ds, text.toList <:+: x.display.toList := by
  have hwording : ¬ Failure.InWording d ds text := by
    rintro (h | ⟨-, -, h | h⟩ | h)
    · exact hheading h
    · exact hblank (by rw [h]; rfl)
    · exact hblank (by rw [h]; rfl)
    · exact hline h.mem
  rw [meetsError, Failure.isDefect, Bool.not_false, Bool.true_and,
    Failure.contains_message_iff hds, or_iff_left hwording]

theorem judge_pass_iff {outcome : Except Failure String} : c.judge d outcome = .pass ↔
    (∃ lua text, outcome = .ok lua ∧ c.expectedError = none ∧ c.expectedFor d = some text ∧
        Text.trim text = lua) ∨
      ∃ f text, outcome = .error f ∧ c.expectedError = some text ∧ meetsError text f = true := by
  cases outcome with
  | ok lua =>
    cases herror : c.expectedError with
    | none =>
      have hjudge : c.judge d (.ok lua) = judgeText (c.expectedFor d) lua := by
        simp only [judge, herror]
      rw [hjudge, judgeText_pass_iff]
      constructor
      · exact fun ⟨text, hexpected, htext⟩ => .inl ⟨lua, text, rfl, rfl, hexpected, htext⟩
      · rintro (⟨_, text, ⟨⟩, -, hexpected, htext⟩ | ⟨_, _, ⟨⟩, -⟩)
        exact ⟨text, hexpected, htext⟩
    | some text => simp [judge, herror]
  | error f =>
    cases herror : c.expectedError with
    | none => simp [judge, herror]
    | some text => simp [judge, herror]

/-- **What makes a case pass.** A case passes if its run gives the Lua text that is expected, or if it
fails with diagnostics and the expected error is found in one of them, or in the wording around them. -/
theorem check_pass_iff (c : Case) (s : Session) (disk : Session.Disk) (file : String) (d : Dialect) :
    (c.check s disk file d).1.verdict = .pass ↔
      (∃ lua text, (s.run disk d c.input).1 = .ok lua ∧ c.expectedError = none ∧
          c.expectedFor d = some text ∧ Text.trim text = lua) ∨
        ∃ ds text, (s.run disk d c.input).1 = .error (.diagnosed d ds) ∧
          c.expectedError = some text ∧
          ((∃ x ∈ ds, text.toList <:+: x.display.toList) ∨ Failure.InWording d ds text) := by
  have hverdict : (c.check s disk file d).1.verdict = c.judge d (s.run disk d c.input).1 := rfl
  rw [hverdict, judge_pass_iff]
  refine or_congr_right ⟨?_, ?_⟩
  · rintro ⟨f, text, hrun, herror, hmeets⟩
    obtain ⟨d', ds, rfl, hcontains⟩ := meetsError_iff.mp hmeets
    obtain ⟨rfl, hds⟩ := Session.of_run_diagnosed hrun
    exact ⟨ds, text, hrun, herror, (Failure.contains_message_iff hds).mp hcontains⟩
  · rintro ⟨ds, text, hrun, herror, hfound⟩
    obtain ⟨-, hds⟩ := Session.of_run_diagnosed hrun
    have hcontains := (Failure.contains_message_iff hds).mpr hfound
    exact ⟨_, text, hrun, herror, meetsError_iff.mpr ⟨d, ds, rfl, hcontains⟩⟩

/-- A session whose declaration files are empty. -/
def undeclared : Session := ⟨"lib", Program.emit, fun _ => some "t.d.ts", .empty⟩

def emptyFiles : Session.Disk := ⟨[("t.d.ts", ""), ("lib/lib.d.ts", "")], [], .empty⟩

/-- A case that expects words that stand before any diagnostics. -/
def expectsHeading : Case :=
  ⟨"heading", "foo;", none, [], some "compiling for", [.lua53], false, false⟩

/-- A case passes although no diagnostic says what it expects. -/
theorem heading_meets_error :
    (expectsHeading.check undeclared emptyFiles "cases.yaml" .lua53).1.verdict = .pass ∧
      ∃ ds, (undeclared.run emptyFiles .lua53 expectsHeading.input).1 =
          .error (.diagnosed .lua53 ds) ∧
        ∀ x ∈ ds, ¬ "compiling for".toList <:+: x.display.toList := by
  refine ⟨by decide +kernel,
    [⟨.error, 2304, "Cannot find name 'foo'.", some ⟨"input.ts", ⟨1, 1⟩⟩⟩], by decide +kernel, ?_⟩
  decide +kernel

end Case

end LuaSnippet
