import CrateDocs.Cache.Basic
import CrateDocs.Query.Basic

namespace CrateDocs.Query

-- The answers to several terms over the given packages, one term after the other.
def answerTerms (policy : MatchPolicy) (installed : Installed) : List String → Work (List Match)
  | [] => return []
  | term :: rest => do
    let query := segments term
    if query.isEmpty then
      Work.note (.emptyTerm term)
      answerTerms policy installed rest
    else
      let found := answer policy installed query
      Work.note (.answered term found.length)
      return found ++ (← answerTerms policy installed rest)

-- The answers to several terms over all cached packages.
def resolve (cache : Cache) (policy : MatchPolicy) (terms : List String) (foreign : List Foreign := []) :
    Work (List Match) := do
  match inOrder (← cache.getAll foreign) with
  | .error e => throw (.digits e)
  | .ok installed => answerTerms policy installed terms

-- What is shown for a query: how many answers there are, their text, and whether a pager shows it.
structure Display where
  count : Nat
  text : String
  paged : Bool

-- Answers go to a pager if the output is a terminal. That there are none is always written.
def display (cache : Cache) (policy : MatchPolicy) (terms : List String) (terminal : Bool) : Work Display := do
  match ← resolve cache policy terms with
  | [] => return ⟨0, "No documentation found for " ++ ", ".intercalate (terms.map Text.quoted) ++ ".\n", false⟩
  | found => return ⟨found.length, Match.renderAll found, terminal⟩

end CrateDocs.Query
