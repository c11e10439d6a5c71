import LoadLedger.Text

/-! # Sources of messages

What stands before a dot in the name of a source may name a source above it. Only a source that
exists counts, the main source or one that has reported, and of these only the nearest. A source is
governed by the main source if the way up from it leads there.
-/
namespace LoadLedger

abbrev Sources := List Text

namespace Sources

def mainSource : Text := "dexusage"

/-- Whether the way up from a source, whose name is given backwards, leads to the main source. Where
a dot led to no source, another dot right in front of it is passed over. -/
def leadsToMain (sources : Sources) : (backwards : Text) → Bool
  | [] | [_] => false
  | c :: d :: rest =>
    if c ≠ CodePoint.point then leadsToMain sources (d :: rest)
    else
      let above := (d :: rest).reverse
      if above = mainSource then true
      else if sources.contains above then leadsToMain sources (d :: rest)
      else leadsToMain sources rest

def isGoverned (sources : Sources) (source : Text) : Bool :=
  source = mainSource || leadsToMain sources source.reverse

def meet (sources : Sources) (source : Text) : Sources :=
  if sources.contains source then sources else source :: sources

end Sources
end LoadLedger
