import Recast.Decoder.Csv
import Recast.Decoder.Json
import Recast.Decoder.Oai

/-!
# Standard — the decoders there are

The registry knows harvests, Json text and delimited text, and asks them in this order.
-/

namespace Recast

structure DecoderOptions where
  oai : OaiOptions
  csv : CsvOptions
  json : JsonOptions
  deriving DecidableEq, Repr

def DecoderOptions.standard : DecoderOptions := ⟨.standard, .standard, .standard⟩

/-- The registry of all decoders with given options. -/
def Registry.ofOptions (o : DecoderOptions) : Registry :=
  .ofList [o.oai.decoder, o.json.decoder, o.csv.decoder]

end Recast
