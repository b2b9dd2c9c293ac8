import AddonLint.Bundle
import AddonLint.Extraction.Duration
import AddonLint.Files.Tree
import AddonLint.Yaml.Error

/-!
# Extraction of bundles

An extractor supplies the bundles of an index image that belong to an operator, or says why there
are none.
-/
namespace AddonLint

/-- Why bundles could not be extracted. -/
inductive ExtractionError where
  | indexImageNotFound (image cache : String)
  | noBundles (image operator : String)
  | manifest (path : String) (source : Yaml.Error)
  | io (path : String) (source : IoError)
  | timeout (image : String) (deadline : Duration)
  | aborted (image reason : String)
  deriving Repr

def ExtractionError.message : ExtractionError → String
  | .indexImageNotFound image cache =>
    "index image " ++ image ++ " not found in bundle cache " ++ cache
  | .noBundles image operator =>
    "index image " ++ image ++ " contains no bundle for operator " ++ operator
  | .manifest path source => "failed to parse bundle file " ++ path ++ ": " ++ source.message
  | .io path source => "failed to read " ++ path ++ ": " ++ source.message
  | .timeout image deadline => "extraction of " ++ image ++ " timed out after " ++ deadline.text
  | .aborted image reason => "extraction of " ++ image ++ " aborted: " ++ reason

/-- What an extraction comes to. -/
abbrev Extracted := Except ExtractionError (List Bundle)

/-- Supplies the bundles of an index image that belong to an operator. -/
abbrev Extractor := (image operator : String) → Extracted

end AddonLint
