import Stencil.Token

/-!
The tokens that are still to be read.
-/

namespace Stencil

structure TokenStream where
  unread : List Token
deriving DecidableEq, Repr

namespace TokenStream

def peek (stream : TokenStream) : Option Token :=
  stream.unread.head?

def peekNext (stream : TokenStream) : Option Token :=
  stream.unread.tail.head?

def next (stream : TokenStream) : Option Token × TokenStream :=
  (stream.unread.head?, ⟨stream.unread.tail⟩)

def isExhausted (stream : TokenStream) : Bool :=
  stream.unread.isEmpty

end TokenStream
end Stencil
