import FlagSurvey.Number.Bounded
import FlagSurvey.Trial.Plan

/-! Rehearsed compilers. A script is a list of rules, and a trial is answered by the first rule that
takes it; a rule may be spent after a number of trials. A trial that no rule takes passes. -/
namespace FlagSurvey

open Number Text

namespace Outcome

def ended (code : Int) (stdout stderr : String) : Outcome :=
  ⟨some code, none, stdout, stderr, .ofMillis 3, false⟩

def passing : Outcome := .ended 0 "" ""

def named? : String → Option Outcome
  | "pass" => some passing
  | "fail" => some (.ended 1 "" "cc1: error: unrecognized command-line option")
  | "hang" => some ⟨none, some 9, "", "", .max, true⟩
  | "crash" => some ⟨none, some 11, "", "", .ofMillis 3, false⟩
  | "unsupported" => some (.ended 0 "" "cc1: warning: this target machine lacks it")
  | "renamed" => some (.ended 0 "" "warning: '-fold' has been renamed to '-fnew'")
  | _ => none

end Outcome

namespace Script

inductive Reply where
  | outcome (o : Outcome)
  | launchFailure (cause : String)
  | failure (cause : Failure)
  deriving Repr

def Reply.answer (reply : Reply) (command : Command) : Except Failure Outcome :=
  match reply with
  | .outcome o => .ok o
  | .launchFailure cause => .error (.launch command.program cause)
  | .failure cause => .error cause

structure Pattern where
  whole : Option String
  start : Option String
  ending : Option String
  part : Option String
  atLeast : Option Int
  atMost : Option Int
  deriving Repr

structure Rule where
  pattern : Pattern
  /-- The trials that the rule still takes; none if it is never spent. -/
  left : Option Nat
  reply : Reply
  deriving Repr

def valueOf (line : String) : Option Int :=
  readSigned? (String.ofList (line.toList.reverse.takeWhile (· != '=')).reverse)

def Pattern.takes (pattern : Pattern) (line : String) : Bool :=
  pattern.whole.all (· == line) &&
    pattern.start.all (·.toList.isPrefixOf line.toList) &&
    pattern.ending.all (·.toList.isSuffixOf line.toList) &&
    pattern.part.all (mentions line) &&
    pattern.atLeast.all (fun bound => (valueOf line).any (bound ≤ ·)) &&
    pattern.atMost.all (fun bound => (valueOf line).any (· ≤ bound))

def replyTo (line : String) : List Rule → Reply × List Rule
  | [] => (.outcome .passing, [])
  | rule :: rest =>
    if rule.pattern.takes line && rule.left != some 0 then
      (rule.reply, { rule with left := rule.left.map (· - 1) } :: rest)
    else
      let (reply, rest) := replyTo line rest
      (reply, rule :: rest)

/-- The arguments of a command on one line, without the test program at their end. -/
def lineOf (testProgram : Option String) (command : Command) : String :=
  let args := command.args
  let args := if testProgram.isSome && args.getLast? == testProgram then args.dropLast else args
  " ".intercalate args

def executor (testProgram : Option String) : Executor (List Rule) where
  execute request rules :=
    let (reply, rules) := replyTo (lineOf testProgram request.command) rules
    (reply.answer request.command, rules)

end Script
end FlagSurvey
