import WorkflowScript.Proofs.Workflow.RoundTrip
import WorkflowScript.Proofs.Workflow.Texts

/-!
# Formatting changes nothing but the form

A workflow is formatted by printing it as the identity transformer leaves
it. What comes out is parsed again, to the same tree up to positions, and
since neither the printed form nor the target code depends on positions,
formatting it once more gives the same text and generating from it the same
code (`format_sound`).
-/

namespace WorkflowScript

namespace Entry

/-- The printed form of a parsed tree is parsed again, to a tree with the
same printed form and the same target code. -/
theorem parseText_print_stable {e : Entry} {text : String} {t : e.Tree}
    (h : e.parseText text = .ok t) : ∃ t', e.parseText (e.fragment t).print = .ok t' ∧
      (e.fragment t').print = (e.fragment t).print ∧
        ∀ names, (e.fragment t').generate names = (e.fragment t).generate names := by
  obtain ⟨t', hparse, herase⟩ := parseText_print (wellFormed_of_parseText h)
  exact ⟨t', hparse, Fragment.print_eq herase, fun names => Fragment.generate_eq names herase⟩

end Entry

/-- For every workflow that the parser accepts: the identity transformer
prints a text, the parser accepts this text, the transformer prints the same
text for what was parsed from it, and with any names for variables the target
code is what it was. -/
theorem format_sound (text : String) (w : Workflow) (h : (parseWorkflow text).result = .ok w) :
    ∃ formatted w',
      (Fragment.workflow w).reprint = some ⟨.workflow w, formatted, ()⟩ ∧
      (parseWorkflow formatted).result = .ok w' ∧
      (Fragment.workflow w').reprint = some ⟨.workflow w', formatted, ()⟩ ∧
      ∀ names, w'.render names = w.render names := by
  have hparse : Entry.workflow.parseText text = .ok w := h
  obtain ⟨w', hparse', hprint, hgenerate⟩ := Entry.parseText_print_stable hparse
  have hagain := Fragment.reprint_eq (.workflow w')
  rw [show (Fragment.workflow w').print = (Fragment.workflow w).print from hprint] at hagain
  exact ⟨(Fragment.workflow w).print, w', Fragment.reprint_eq _, hparse', hagain, hgenerate⟩

/-- What is parsed from a workflow on one line, with an action that stands
behind a transition. -/
def oneLineWorkflow : Workflow :=
  let guard : Condition :=
    ⟨⟨⟨false, ⟨(Factor.variable "a" ⟨37, 1, 38⟩).toExpression, none⟩⟩,
      [⟨false, ⟨(Factor.variable "b" ⟨43, 1, 44⟩).toExpression, none⟩⟩]⟩, []⟩
  let assignment : Assignment := ⟨"x", (Factor.integer "1").toExpression, ⟨51, 1, 52⟩⟩
  ⟨"w", [⟨.node, "n", [⟨.enter, [.assignment assignment], ⟨45, 1, 46⟩⟩],
    [⟨"n", some guard, ⟨18, 1, 19⟩⟩], ⟨11, 1, 12⟩⟩], .start⟩

/-- The same workflow in its formatted text. -/
def oneLineFormatted : String :=
  "workflow w\n  node n\n    enter\n      x = 1\n    end\n" ++
    "    transition to n if a and b\n  end\nend\n"

/-- The action comes first in the formatted text, and the code stays. -/
theorem format_one_line : ∃ w',
    (Fragment.workflow oneLineWorkflow).reprint =
      some ⟨.workflow oneLineWorkflow, oneLineFormatted, ()⟩ ∧
    (parseWorkflow oneLineFormatted).result = .ok w' ∧
    (Fragment.workflow w').reprint = some ⟨.workflow w', oneLineFormatted, ()⟩ ∧
    (∀ names, w'.render names = oneLineWorkflow.render names) ∧
    w'.render .verbatim = "node n\n  enter: x=1;\n  -> n: a&&b\n" := by
  have hparse : (parseWorkflow
      "workflow w node n transition to n if a and b enter x = 1 end end end").result =
        .ok oneLineWorkflow := rfl
  have hformatted : (Fragment.workflow oneLineWorkflow).reprint =
      some ⟨.workflow oneLineWorkflow, oneLineFormatted, ()⟩ := by cbv
  have hlisting : oneLineWorkflow.render .verbatim = "node n\n  enter: x=1;\n  -> n: a&&b\n" := by
    decide
  obtain ⟨_, w', hreprint, haccepted, hagain, hrender⟩ := format_sound _ _ hparse
  obtain ⟨-, rfl, -⟩ := Visited.mk.inj (Option.some.inj (hformatted.symm.trans hreprint))
  exact ⟨w', hformatted, haccepted, hagain, hrender, (hrender .verbatim).trans hlisting⟩

end WorkflowScript
