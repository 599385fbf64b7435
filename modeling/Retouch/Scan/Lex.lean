/-! Code and string literals in a stream of bytes. Literals open with any of three quotes, close
with the same quote, and skip the byte after a backslash. -/
namespace Retouch

inductive Lex where
  | code
  | literal (quote : UInt8)
  /-- Right after a backslash in a literal. -/
  | escape (quote : UInt8)
  deriving DecidableEq, Repr

def isQuote (b : UInt8) : Bool := b == 0x22 || b == 0x27 || b == 0x60

def isOpener (b : UInt8) : Bool := b == 0x28 || b == 0x5B || b == 0x7B

def isCloser (b : UInt8) : Bool := b == 0x29 || b == 0x5D || b == 0x7D

def isSeparator (b : UInt8) : Bool := b == 0x2C || b == 0x3B

namespace Lex

/-- What follows a byte. -/
def step : Lex → UInt8 → Lex
  | code, b => if isQuote b then literal b else code
  | literal quote, b => if b == 0x5C then escape quote else if b == quote then code else literal quote
  | escape quote, _ => literal quote

/-- What follows a run of bytes. -/
def run (lex : Lex) (bs : List UInt8) : Lex := bs.foldl step lex

@[simp] theorem run_nil (lex : Lex) : lex.run [] = lex := rfl

@[simp] theorem run_cons (lex : Lex) (b : UInt8) (bs : List UInt8) :
    lex.run (b :: bs) = (lex.step b).run bs := rfl

theorem run_append (lex : Lex) (as bs : List UInt8) : lex.run (as ++ bs) = (lex.run as).run bs :=
  List.foldl_append

end Lex
end Retouch
