/-!
# Embedded documents

The schema of graph documents is a set of five schema documents, next to which
stands a document type definition. They are part of the program, so a graph
document can be checked without any other file.
-/

namespace GraphMarkup.Schema

namespace Embedded

/-- The document type definition of graph documents. -/
def documentTypeText : String :=
  r#"<!-- GraphML DTD (flat version) -->

<!ENTITY % GRAPHML.xlink.ns.attrib "xmlns:xlink CDATA #FIXED 'http://www.w3.org/1999/xlink'">

<!ELEMENT graphml ((desc)?,(key)*,((data)|(graph))*)>
<!ATTLIST graphml
    xmlns CDATA #FIXED 'http://graphml.graphdrawing.org/xmlns'
    %GRAPHML.xlink.ns.attrib;>

<!ELEMENT locator EMPTY>
<!ATTLIST locator
    xmlns:xlink CDATA #FIXED 'http://www.w3.org/1999/xlink'
    xlink:href CDATA #REQUIRED
    xlink:type (simple) #FIXED "simple">

<!ELEMENT desc (#PCDATA)>

<!ELEMENT graph ((desc)?,((((data)|(node)|(edge)|(hyperedge))*)|(locator)))>
<!ATTLIST graph
    id ID #IMPLIED
    edgedefault (directed|undirected) #REQUIRED>

<!ELEMENT node ((desc)?,(((data|port)*,(graph)?)|(locator)))>
<!ATTLIST node
    id ID #REQUIRED>

<!ELEMENT port ((desc)?,((data)|(port))*)>
<!ATTLIST port
    name NMTOKEN #REQUIRED>

<!ELEMENT edge ((desc)?,(data)*,(graph)?)>
<!ATTLIST edge
    id ID #IMPLIED
    source IDREF #REQUIRED
    sourceport NMTOKEN #IMPLIED
    target IDREF #REQUIRED
    targetport NMTOKEN #IMPLIED
    directed (true|false) #IMPLIED>

<!ELEMENT hyperedge ((desc)?,((data)|(endpoint))*,(graph)?)>
<!ATTLIST hyperedge
    id ID #IMPLIED>

<!ELEMENT endpoint ((desc)?)>
<!ATTLIST endpoint
    id ID #IMPLIED
    node IDREF #REQUIRED
    port NMTOKEN #IMPLIED
    type (in|out|undir) "undir">

<!ELEMENT key (#PCDATA)>
<!ATTLIST key
    id ID #REQUIRED
    for (graph|node|edge|hyperedge|port|endpoint|all) "all">

<!ELEMENT data (#PCDATA)>
<!ATTLIST data
    key IDREF #REQUIRED
    id ID #IMPLIED>
"#

/-- The root of the schema set. -/
def rootText : String :=
  r#"<?xml version="1.0" encoding="UTF-8"?>
<!-- GraphML schema: root document of the schema set. -->
<xs:schema targetNamespace="http://graphml.graphdrawing.org/xmlns"
           xmlns="http://graphml.graphdrawing.org/xmlns"
           xmlns:xs="http://www.w3.org/2001/XMLSchema"
           elementFormDefault="qualified"
           attributeFormDefault="unqualified">

  <xs:annotation>
    <xs:documentation xml:lang="en">
      Combines the structural layer with the attribute and parse info
      extensions.
    </xs:documentation>
  </xs:annotation>

  <xs:redefine schemaLocation="graphml-parseinfo.xsd">
    <xs:attributeGroup name="graph.extra.attrib">
      <xs:attributeGroup ref="graph.extra.attrib"/>
    </xs:attributeGroup>
  </xs:redefine>

</xs:schema>
"#

/-- The structural layer: elements, their content and the constraints on ids. -/
def structureText : String :=
  r#"<?xml version="1.0" encoding="UTF-8"?>
<!-- GraphML structural layer: graphs, nodes, edges, hyperedges and ports. -->
<xs:schema targetNamespace="http://graphml.graphdrawing.org/xmlns"
           xmlns="http://graphml.graphdrawing.org/xmlns"
           xmlns:xs="http://www.w3.org/2001/XMLSchema"
           xmlns:xlink="http://www.w3.org/1999/xlink"
           elementFormDefault="qualified"
           attributeFormDefault="unqualified">

  <xs:import namespace="http://www.w3.org/1999/xlink" schemaLocation="xlink.xsd"/>

  <xs:attributeGroup name="graph.extra.attrib"/>
  <xs:attributeGroup name="node.extra.attrib"/>
  <xs:attributeGroup name="key.extra.attrib"/>

  <xs:simpleType name="key.for.type">
    <xs:restriction base="xs:NMTOKEN">
      <xs:enumeration value="all"/>
      <xs:enumeration value="graphml"/>
      <xs:enumeration value="graph"/>
      <xs:enumeration value="node"/>
      <xs:enumeration value="edge"/>
      <xs:enumeration value="hyperedge"/>
      <xs:enumeration value="port"/>
      <xs:enumeration value="endpoint"/>
    </xs:restriction>
  </xs:simpleType>

  <xs:simpleType name="graph.edgedefault.type">
    <xs:restriction base="xs:NMTOKEN">
      <xs:enumeration value="directed"/>
      <xs:enumeration value="undirected"/>
    </xs:restriction>
  </xs:simpleType>

  <xs:simpleType name="endpoint.type.type">
    <xs:restriction base="xs:NMTOKEN">
      <xs:enumeration value="in"/>
      <xs:enumeration value="out"/>
      <xs:enumeration value="undir"/>
    </xs:restriction>
  </xs:simpleType>

  <xs:simpleType name="edge.directed.type">
    <xs:restriction base="xs:boolean"/>
  </xs:simpleType>

  <xs:element name="desc" type="xs:string"/>

  <xs:element name="graphml">
    <xs:complexType>
      <xs:sequence>
        <xs:element ref="desc" minOccurs="0"/>
        <xs:element ref="key" minOccurs="0" maxOccurs="unbounded"/>
        <xs:choice minOccurs="0" maxOccurs="unbounded">
          <xs:element ref="data"/>
          <xs:element ref="graph"/>
        </xs:choice>
      </xs:sequence>
    </xs:complexType>
    <xs:key name="key.id.key">
      <xs:selector xpath=".//key"/>
      <xs:field xpath="@id"/>
    </xs:key>
    <xs:key name="node.id.key">
      <xs:selector xpath=".//node"/>
      <xs:field xpath="@id"/>
    </xs:key>
    <xs:keyref name="data.key.keyref" refer="key.id.key">
      <xs:selector xpath=".//data"/>
      <xs:field xpath="@key"/>
    </xs:keyref>
    <xs:keyref name="edge.source.keyref" refer="node.id.key">
      <xs:selector xpath=".//edge"/>
      <xs:field xpath="@source"/>
    </xs:keyref>
    <xs:keyref name="edge.target.keyref" refer="node.id.key">
      <xs:selector xpath=".//edge"/>
      <xs:field xpath="@target"/>
    </xs:keyref>
  </xs:element>

  <xs:element name="key">
    <xs:complexType>
      <xs:sequence>
        <xs:element ref="desc" minOccurs="0"/>
        <xs:element ref="default" minOccurs="0"/>
      </xs:sequence>
      <xs:attribute name="id" type="xs:NMTOKEN" use="required"/>
      <xs:attribute name="for" type="key.for.type" default="all"/>
      <xs:attributeGroup ref="key.extra.attrib"/>
    </xs:complexType>
  </xs:element>

  <xs:element name="default" type="xs:string"/>

  <xs:element name="data">
    <xs:complexType mixed="true">
      <xs:sequence>
        <xs:any processContents="lax" minOccurs="0" maxOccurs="unbounded"/>
      </xs:sequence>
      <xs:attribute name="key" type="xs:NMTOKEN" use="required"/>
      <xs:attribute name="id" type="xs:NMTOKEN" use="optional"/>
    </xs:complexType>
  </xs:element>

  <xs:element name="graph">
    <xs:complexType>
      <xs:sequence>
        <xs:element ref="desc" minOccurs="0"/>
        <xs:choice>
          <xs:choice minOccurs="0" maxOccurs="unbounded">
            <xs:element ref="data"/>
            <xs:element ref="node"/>
            <xs:element ref="edge"/>
            <xs:element ref="hyperedge"/>
          </xs:choice>
          <xs:element ref="locator"/>
        </xs:choice>
      </xs:sequence>
      <xs:attribute name="id" type="xs:NMTOKEN" use="optional"/>
      <xs:attribute name="edgedefault" type="graph.edgedefault.type" use="required"/>
      <xs:attributeGroup ref="graph.extra.attrib"/>
    </xs:complexType>
  </xs:element>

  <xs:element name="node">
    <xs:complexType>
      <xs:sequence>
        <xs:element ref="desc" minOccurs="0"/>
        <xs:choice>
          <xs:sequence>
            <xs:choice minOccurs="0" maxOccurs="unbounded">
              <xs:element ref="data"/>
              <xs:element ref="port"/>
            </xs:choice>
            <xs:element ref="graph" minOccurs="0"/>
          </xs:sequence>
          <xs:element ref="locator"/>
        </xs:choice>
      </xs:sequence>
      <xs:attribute name="id" type="xs:NMTOKEN" use="required"/>
      <xs:attributeGroup ref="node.extra.attrib"/>
    </xs:complexType>
  </xs:element>

  <xs:element name="port">
    <xs:complexType>
      <xs:sequence>
        <xs:element ref="desc" minOccurs="0"/>
        <xs:choice minOccurs="0" maxOccurs="unbounded">
          <xs:element ref="data"/>
          <xs:element ref="port"/>
        </xs:choice>
      </xs:sequence>
      <xs:attribute name="name" type="xs:NMTOKEN" use="required"/>
    </xs:complexType>
  </xs:element>

  <xs:element name="edge">
    <xs:complexType>
      <xs:sequence>
        <xs:element ref="desc" minOccurs="0"/>
        <xs:element ref="data" minOccurs="0" maxOccurs="unbounded"/>
        <xs:element ref="graph" minOccurs="0"/>
      </xs:sequence>
      <xs:attribute name="id" type="xs:NMTOKEN" use="optional"/>
      <xs:attribute name="directed" type="edge.directed.type" use="optional"/>
      <xs:attribute name="source" type="xs:NMTOKEN" use="required"/>
      <xs:attribute name="target" type="xs:NMTOKEN" use="required"/>
      <xs:attribute name="sourceport" type="xs:NMTOKEN" use="optional"/>
      <xs:attribute name="targetport" type="xs:NMTOKEN" use="optional"/>
    </xs:complexType>
  </xs:element>

  <xs:element name="hyperedge">
    <xs:complexType>
      <xs:sequence>
        <xs:element ref="desc" minOccurs="0"/>
        <xs:choice minOccurs="0" maxOccurs="unbounded">
          <xs:element ref="data"/>
          <xs:element ref="endpoint"/>
        </xs:choice>
        <xs:element ref="graph" minOccurs="0"/>
      </xs:sequence>
      <xs:attribute name="id" type="xs:NMTOKEN" use="optional"/>
    </xs:complexType>
  </xs:element>

  <xs:element name="endpoint">
    <xs:complexType>
      <xs:sequence>
        <xs:element ref="desc" minOccurs="0"/>
      </xs:sequence>
      <xs:attribute name="id" type="xs:NMTOKEN" use="optional"/>
      <xs:attribute name="node" type="xs:NMTOKEN" use="required"/>
      <xs:attribute name="port" type="xs:NMTOKEN" use="optional"/>
      <xs:attribute name="type" type="endpoint.type.type" default="undir"/>
    </xs:complexType>
  </xs:element>

  <xs:element name="locator">
    <xs:complexType>
      <xs:attribute ref="xlink:href" use="required"/>
      <xs:attribute ref="xlink:type" fixed="simple"/>
    </xs:complexType>
  </xs:element>

</xs:schema>
"#

/-- The attributes extension: typed declarations of data. -/
def attributesText : String :=
  r#"<?xml version="1.0" encoding="UTF-8"?>
<!-- GraphML attributes extension: typed key declarations. -->
<xs:schema targetNamespace="http://graphml.graphdrawing.org/xmlns"
           xmlns="http://graphml.graphdrawing.org/xmlns"
           xmlns:xs="http://www.w3.org/2001/XMLSchema"
           elementFormDefault="qualified"
           attributeFormDefault="unqualified">

  <xs:redefine schemaLocation="graphml-structure.xsd">
    <xs:attributeGroup name="key.extra.attrib">
      <xs:attributeGroup ref="key.extra.attrib"/>
      <xs:attributeGroup ref="key.attributes.attrib"/>
    </xs:attributeGroup>
  </xs:redefine>

  <xs:simpleType name="key.name.type">
    <xs:restriction base="xs:NMTOKEN"/>
  </xs:simpleType>

  <xs:simpleType name="key.type.type">
    <xs:restriction base="xs:NMTOKEN">
      <xs:enumeration value="boolean"/>
      <xs:enumeration value="int"/>
      <xs:enumeration value="long"/>
      <xs:enumeration value="float"/>
      <xs:enumeration value="double"/>
      <xs:enumeration value="string"/>
    </xs:restriction>
  </xs:simpleType>

  <xs:attributeGroup name="key.attributes.attrib">
    <xs:attribute name="attr.name" type="key.name.type" use="optional"/>
    <xs:attribute name="attr.type" type="key.type.type" use="optional"/>
  </xs:attributeGroup>

</xs:schema>
"#

/-- The parse information extension: counts and orders. -/
def parseInfoText : String :=
  r#"<?xml version="1.0" encoding="UTF-8"?>
<!-- GraphML parse info extension: counting and ordering hints. -->
<xs:schema targetNamespace="http://graphml.graphdrawing.org/xmlns"
           xmlns="http://graphml.graphdrawing.org/xmlns"
           xmlns:xs="http://www.w3.org/2001/XMLSchema"
           elementFormDefault="qualified"
           attributeFormDefault="unqualified">

  <xs:redefine schemaLocation="graphml-attributes.xsd">
    <xs:attributeGroup name="graph.extra.attrib">
      <xs:attributeGroup ref="graph.extra.attrib"/>
      <xs:attributeGroup ref="graph.parseinfo.attrib"/>
    </xs:attributeGroup>
    <xs:attributeGroup name="node.extra.attrib">
      <xs:attributeGroup ref="node.extra.attrib"/>
      <xs:attributeGroup ref="node.parseinfo.attrib"/>
    </xs:attributeGroup>
  </xs:redefine>

  <xs:simpleType name="graph.order.type">
    <xs:restriction base="xs:NMTOKEN">
      <xs:enumeration value="free"/>
      <xs:enumeration value="nodesfirst"/>
      <xs:enumeration value="adjacencylist"/>
    </xs:restriction>
  </xs:simpleType>

  <xs:simpleType name="graph.nodeids.type">
    <xs:restriction base="xs:NMTOKEN">
      <xs:enumeration value="canonical"/>
      <xs:enumeration value="free"/>
    </xs:restriction>
  </xs:simpleType>

  <xs:simpleType name="graph.edgeids.type">
    <xs:restriction base="xs:NMTOKEN">
      <xs:enumeration value="canonical"/>
      <xs:enumeration value="free"/>
    </xs:restriction>
  </xs:simpleType>

  <xs:attributeGroup name="graph.parseinfo.attrib">
    <xs:attribute name="parse.nodeids" type="graph.nodeids.type" use="optional"/>
    <xs:attribute name="parse.edgeids" type="graph.edgeids.type" use="optional"/>
    <xs:attribute name="parse.order" type="graph.order.type" use="optional"/>
    <xs:attribute name="parse.nodes" type="xs:nonNegativeInteger" use="optional"/>
    <xs:attribute name="parse.edges" type="xs:nonNegativeInteger" use="optional"/>
    <xs:attribute name="parse.maxindegree" type="xs:nonNegativeInteger" use="optional"/>
    <xs:attribute name="parse.maxoutdegree" type="xs:nonNegativeInteger" use="optional"/>
  </xs:attributeGroup>

  <xs:attributeGroup name="node.parseinfo.attrib">
    <xs:attribute name="parse.indegree" type="xs:nonNegativeInteger" use="optional"/>
    <xs:attribute name="parse.outdegree" type="xs:nonNegativeInteger" use="optional"/>
  </xs:attributeGroup>

</xs:schema>
"#

/-- The part of the linking vocabulary that the structural layer refers to. -/
def linkText : String :=
  r#"<?xml version="1.0" encoding="UTF-8"?>
<!-- The subset of XLink referenced by the GraphML locator element. -->
<xs:schema targetNamespace="http://www.w3.org/1999/xlink"
           xmlns:xs="http://www.w3.org/2001/XMLSchema"
           attributeFormDefault="qualified">

  <xs:attribute name="href" type="xs:anyURI"/>

  <xs:attribute name="type" type="xs:string" fixed="simple"/>

</xs:schema>
"#

/-- The embedded documents by name. -/
def documents : List (String × String) :=
  [("graphml.dtd", documentTypeText),
   ("graphml.xsd", rootText),
   ("graphml-structure.xsd", structureText),
   ("graphml-attributes.xsd", attributesText),
   ("graphml-parseinfo.xsd", parseInfoText),
   ("xlink.xsd", linkText)]

/-- The names of the embedded documents. -/
def names : List String :=
  documents.map Prod.fst

/-- The embedded document with a name. -/
def find? (name : String) : Option String :=
  documents.lookup name

end Embedded

end GraphMarkup.Schema
