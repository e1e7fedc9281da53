/-
Module: TavilyHikari.ForwardProxy.Entries
Purpose: The lines of the proxy settings, cut into entries at line feeds, commas and
  semicolons, and the normal forms of what is read of them.
Trusted boundary: that of `ForwardProxy.Endpoint`
Main exports: splitProxyEntryTokens, normalizeProxyUrlEntries, entryForms_trim
-/
import TavilyHikari.ForwardProxy.Endpoint
import TavilyHikari.Library.Delimiters

namespace TavilyHikari.ForwardProxy

open Library

def splitProxyEntryTokens (raw : String) : List String :=
  ((splitAny ['\n', ',', ';'] raw).map trim).filter fun token =>
    token ≠ "" && !startsWith "#" token

variable (parsers : ProxyParsers)

/-- The normal forms of the entries of a text, in order. -/
def entryForms (raw : String) : List String :=
  (splitProxyEntryTokens raw).filterMap fun token =>
    (parseForwardProxyEntry parsers token).map ParsedForwardProxyEntry.normalized

def normalizeProxyUrlEntries (rawEntries : List String) : List String :=
  freshKeyed id [] (rawEntries.flatMap (entryForms parsers))

/-- The entries of a text are among its words. -/
theorem splitProxyEntryTokens_eq (raw : String) :
    splitProxyEntryTokens raw =
      ((wordsOf (fun c => ['\n', ',', ';'].contains c) isWhiteSpace raw.toList).map
        String.ofList).filter fun token => !startsWith "#" token := by
  rw [← words_splitAny, List.filter_filter, splitProxyEntryTokens]
  apply List.filter_congr
  intro token _
  have shown : decide (token ≠ "") = !token.toList.isEmpty := by
    rw [Bool.eq_iff_iff, decide_eq_true_iff, Bool.not_eq_true', List.isEmpty_eq_false_iff, Ne,
      Ne, ← String.toList_inj]
    rfl
  rw [shown, Bool.and_comm]

/-- White space around a text is in none of its entries. -/
theorem entryForms_trim (raw : String) : entryForms parsers (trim raw) = entryForms parsers raw := by
  rw [entryForms, entryForms, splitProxyEntryTokens_eq, splitProxyEntryTokens_eq, trim,
    String.toList_ofList, wordsOf_trimChars]

end TavilyHikari.ForwardProxy
