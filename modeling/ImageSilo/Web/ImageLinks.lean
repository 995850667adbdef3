import ImageSilo.Go.Text

/-! The texts of `imageLinks` in their four formats, and the text for several images, one link on a line.
-/
namespace ImageSilo.Web

open Go

inductive LinkFormat
  | direct
  | markdown
  | html
  | bbcode
  deriving DecidableEq

structure LinkableImage where
  originalName : GoString
  standardUrl : GoString

def escapeHTML (value : GoString) : GoString :=
  replaceAll (replaceAll (replaceAll (replaceAll value (str "&") (str "&amp;")) (str "\"") (str "&quot;"))
    (str "<") (str "&lt;")) (str ">") (str "&gt;")

/-- `replace(/[\\[\]]/g, '\\$&')`. -/
def escapeBrackets (name : GoString) : GoString :=
  name.flatMap fun c => if (str "\\[]").contains c then [0x5c, c] else [c]

-- `new URL(url, window.location.origin).toString()`
variable (toURL : GoString → GoString)

def imageLinks (image : LinkableImage) : LinkFormat → GoString
  | .direct => toURL image.standardUrl
  | .markdown =>
      str "![" ++ escapeBrackets image.originalName ++ str "](" ++ toURL image.standardUrl ++ str ")"
  | .html =>
      str "<img src=\"" ++ escapeHTML (toURL image.standardUrl) ++ str "\" alt=\"" ++
        escapeHTML image.originalName ++ str "\">"
  | .bbcode => str "[img]" ++ toURL image.standardUrl ++ str "[/img]"

def imageLinksText (images : List LinkableImage) (format : LinkFormat) : GoString :=
  join 0x0a (images.map fun image => imageLinks toURL image format)

end ImageSilo.Web
