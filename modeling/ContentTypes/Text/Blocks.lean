namespace ContentTypes.Text

-- Both ends of a block belong to it.
abbrev Blocks := List (Nat × Nat)

def Blocks.has (blocks : Blocks) (c : Char) : Bool :=
  blocks.any fun block => block.1 ≤ c.toNat && c.toNat ≤ block.2

end ContentTypes.Text
