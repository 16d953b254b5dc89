/-!
# Instances

Powers of numbers, the order of lists and what is decided element by element are those of the core
library throughout, also where another library brings its own.
-/

attribute [instance (high)] instPowNat List.instLE
attribute [instance (high)] List.decidableBAll List.decidableBEx Option.decidableForallMem
attribute [default_instance (high + 1)] instPowNat
