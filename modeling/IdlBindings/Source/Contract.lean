import IdlBindings.Source.Shape

/-
This file writes the contract of an interface: the operations a provider has to offer.
-/

namespace IdlBindings.Source

structure Operation where
  name : String
  parameters : List Parameter
  results : List String

namespace Operation

def parameterType (context : Context) (argument : Binding.Argument) : ParameterType :=
  match argument.type with
  | .scalar type => scalarParameterType context argument type
  | .carried type => lent argument (type.viewName context argument.direction)
  | other => .value (handleType context other)

def ofMethod (context : Context) (method : Binding.Method) : Operation where
  name := method.operation
  parameters := method.parameters.map fun argument =>
    ⟨argument.name, parameterType context argument⟩
  results := method.results.map (resultType context)

def text (operation : Operation) : String :=
  "\tfn " ++ operation.name ++ "(&mut self" ++
    String.join (operation.parameters.map Parameter.text) ++ ") -> Result<" ++
    tuple operation.results ++ ",COBIAError>;\n"

end Operation

structure Contract where
  name : String
  genericParameters : String
  operations : List Operation

namespace Contract

def ofInterface (context : Context) (interface : Binding.Interface) : Contract where
  name := interface.name
  genericParameters := interface.genericParameters
  operations := interface.methods.map (Operation.ofMethod context)

def text (contract : Contract) : String :=
  "///" ++ contract.name ++ "\n///\n///" ++ contract.name ++ " interface\n///\npub trait " ++
    contract.name ++ contract.genericParameters ++ " \x7b\n" ++
    String.join (contract.operations.map Operation.text) ++ "\x7d\n\n"

end Contract

end IdlBindings.Source
