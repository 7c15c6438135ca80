/-
This file loads settings, where no unknown field may stand.
-/

import DecoderForge.Config
import DecoderForge.Loading.Reader

namespace DecoderForge

namespace Loading

namespace Reader

def configFields : List String := ["tagField", "namedImportStyle"]

def config : Loader CompileConfig
  | .object _ _ es ending => do
    let columns := (Columns.one "tagField" (optional text)).and (.one "namedImportStyle" flag)
    let (tagField, namedImports) ← entries columns (some configFields) ending es columns.none
    return ⟨tagField.join, namedImports.getD false⟩
  | .list _ _ is ending => do
    let tagField ← element? is ending 0 (optional text)
    let namedImports ← element? is ending 1 flag
    noMore is 2
    return ⟨tagField.join, namedImports.getD false⟩
  | other => .error (wrongType (.record "CompileConfig") other)

end Reader

end Loading

end DecoderForge
